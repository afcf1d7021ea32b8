/-!
# Results that may be errors

What is known of the parts if something read in steps gives a value, or an error.

## Main results

* `exists_of_bind_eq_ok`, `exists_of_map_eq_ok` : if the whole gives a value, then so do the parts.
* `bind_pure_eq_error_iff` : a check whose value does not matter gives the error of the whole.
-/

namespace VideoCall

variable {α β ε : Type}

theorem exists_of_bind_eq_ok {x : Except ε α} {f : α → Except ε β} {b : β}
    (h : x >>= f = .ok b) : ∃ a, x = .ok a ∧ f a = .ok b := by
  cases x with
  | error e => cases h
  | ok a => exact ⟨a, rfl, h⟩

theorem exists_of_map_eq_ok {x : Except ε α} {f : α → β} {b : β} (h : x.map f = .ok b) :
    ∃ a, x = .ok a ∧ f a = b := by
  cases x with
  | error e => cases h
  | ok a => exact ⟨a, rfl, Except.ok.inj h⟩

theorem bind_pure_eq_error_iff {x : Except ε α} {b : β} {e : ε} :
    (x >>= fun _ => pure b) = .error e ↔ x = .error e := by
  cases x with
  | error e' => exact ⟨fun h => congrArg Except.error (Except.error.inj h),
      fun h => congrArg Except.error (Except.error.inj h)⟩
  | ok a => exact iff_of_false nofun nofun

end VideoCall
