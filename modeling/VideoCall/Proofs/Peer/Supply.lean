import Mathlib.Data.Multiset.AddSub
import Mathlib.Data.Multiset.Count
import VideoCall.Peer.Mesh

/-!
# The streams of a connection

A connection gets streams to send when it is opened, and one at a time later on; one at a time they
are taken from it again. The books of a connection are in order if nothing is taken that it does not
have. What it was given is then what was taken from it together with what it has.

## Main definitions

* `Peer.Supply` : a stream is given to a connection, or taken from it.
* `Peer.Supply.after?` : what a connection has after some supplies, if its books are in order.
* `Effect.supplies` : the supplies of a connection.

## Main results

* `Peer.Supply.given_eq` : what was given was taken, or is there.
* `Peer.Supply.count_taken_lt` : what is taken was given before, and not yet taken.
-/

namespace VideoCall

open Media

namespace Peer

/-- A stream is given to a connection, or taken from it. -/
inductive Supply
  | given (m : Stream)
  | taken (m : Stream)
  deriving DecidableEq

namespace Supply

/-- The streams that are given, in order. -/
def givens (l : List Supply) : List Stream := l.filterMap fun | given m => some m | _ => none

/-- The streams that are taken, in order. -/
def takens (l : List Supply) : List Stream := l.filterMap fun | taken m => some m | _ => none

/-- What a connection has after one supply. Nothing can be taken that it does not have. -/
def next? (has : Multiset Stream) : Supply → Option (Multiset Stream)
  | given m => some (m ::ₘ has)
  | taken m => if m ∈ has then some (has.erase m) else none

/-- What a connection has after several supplies. -/
def after? (has : Multiset Stream) (l : List Supply) : Option (Multiset Stream) :=
  l.foldlM next? has

variable {has has' : Multiset Stream} {l k : List Supply} {m : Stream}

theorem after?_append (has : Multiset Stream) (l k : List Supply) :
    after? has (l ++ k) = (after? has l).bind fun has' => after? has' k :=
  List.foldlM_append

theorem after?_given (has : Multiset Stream) (m : Stream) :
    after? has [given m] = some (m ::ₘ has) := rfl

theorem after?_taken (has : Multiset Stream) (m : Stream) :
    after? (m ::ₘ has) [taken m] = some has := by
  have hnext : next? (m ::ₘ has) (taken m) = some has := by
    rw [next?, if_pos (Multiset.mem_cons_self m has), Multiset.erase_cons_head]
  exact (congrArg (· >>= fun has => after? has []) hnext).trans rfl

/-- Streams are given one after the other. -/
theorem after?_givens (has : Multiset Stream) (ms : List Stream) :
    after? has (ms.map given) = some (↑ms + has) := by
  induction ms generalizing has with
  | nil => simp [after?]
  | cons m ms ih =>
    have hfirst : after? has ((m :: ms).map given) = after? (m ::ₘ has) (ms.map given) := rfl
    rw [hfirst, ih, ← Multiset.cons_coe, Multiset.add_cons, Multiset.cons_add]

/-- What was there or was given, was taken or is there. -/
theorem balance (h : after? has l = some has') : has + ↑(givens l) = ↑(takens l) + has' := by
  induction l generalizing has with
  | nil =>
    obtain rfl : has = has' := Option.some.inj h
    exact (Multiset.add_zero _).trans (Multiset.zero_add _).symm
  | cons s l ih =>
    obtain ⟨between, hs, hl⟩ := Option.bind_eq_some_iff.1 h
    have hrest := ih hl
    cases s with
    | given m =>
      obtain rfl : m ::ₘ has = between := Option.some.inj hs
      calc has + ↑(m :: givens l)
          = m ::ₘ has + ↑(givens l) := by rw [← Multiset.cons_coe, Multiset.add_cons,
            Multiset.cons_add]
        _ = ↑(takens l) + has' := hrest
    | taken m =>
      rw [next?] at hs
      split at hs
      · rename_i hm
        obtain rfl : has.erase m = between := Option.some.inj hs
        calc has + ↑(givens l)
            = m ::ₘ (has.erase m + ↑(givens l)) := by rw [← Multiset.cons_add,
              Multiset.cons_erase hm]
          _ = ↑(m :: takens l) + has' := by rw [hrest, ← Multiset.cons_coe, Multiset.cons_add]
      · cases hs

/-- What was given to a connection was taken from it, or is there. -/
theorem given_eq (h : after? 0 l = some has) :
    (givens l : Multiset Stream) = ↑(takens l) + has := by
  simpa using balance h

/-- A stream that is taken was given before, more often than it was taken. -/
theorem count_taken_lt (h : (after? 0 (l ++ taken m :: k)).isSome) :
    (takens l).count m < (givens l).count m := by
  rw [after?_append] at h
  cases hl : after? 0 l with
  | none =>
    rw [hl] at h
    cases h
  | some has =>
    rw [hl] at h
    have hm : m ∈ has := by
      by_contra hm
      have hnone : next? has (taken m) = none := if_neg hm
      have hafter : after? has (taken m :: k) = none :=
        congrArg (· >>= fun has => after? has k) hnone
      rw [Option.bind_some, hafter] at h
      cases h
    have hcount := congrArg (Multiset.count m) (given_eq hl)
    rw [Multiset.count_add, Multiset.coe_count, Multiset.coe_count] at hcount
    have hpos : 0 < has.count m := Multiset.count_pos.2 hm
    omega

end Supply

/-- What a command is for the connection that gets it. -/
def Command.supplies : Command → List Supply
  | .signal _ => []
  | .addStream m => [.given m]
  | .removeStream m => [.taken m]

/-- What a dealing with the media stack is for the connection of a number. It makes no difference
whether the connection takes a command. -/
def LineEvent.supplies (n : Nat) : LineEvent → List Supply
  | .opened line _ options => if line = n then options.streams.map .given else []
  | .told line command _ => if line = n then command.supplies else []
  | _ => []

end Peer

namespace Effect

open Peer

/-- What is given to the connection of a number, and taken from it. -/
def supplies (n : Nat) (es : List Effect) : List Supply := (lines es).flatMap (LineEvent.supplies n)

@[simp]
theorem supplies_append (n : Nat) (es fs : List Effect) :
    supplies n (es ++ fs) = supplies n es ++ supplies n fs := by
  simp [supplies]

theorem supplies_eq_nil {n : Nat} {es : List Effect}
    (h : ∀ l, .line l ∈ es → l.supplies n = []) : supplies n es = [] := by
  refine List.flatMap_eq_nil_iff.2 fun l hl => h l ?_
  obtain ⟨e, he, hel⟩ := List.mem_filterMap.1 hl
  cases e with
  | line l' => exact Option.some.inj hel ▸ he
  | _ => cases hel

end Effect

/-! ### Commands for all connections -/

open Outcome

namespace Peer.Mesh

variable (m : Mesh) (b : Switchboard) (command : Command)

/-- A command for all connections is one for each of them. -/
theorem supplies_tellAll (n : Nat) : Effect.supplies n (m.tellAll b command).effects =
    m.lines.entries.flatMap fun e => if e.2.number = n then command.supplies else [] := by
  unfold tellAll
  induction m.lines.entries with
  | nil => rfl
  | cons e entries ih =>
    rw [forEach_cons, effects_bind, Effect.supplies_append, List.flatMap_cons, effects_map]
    exact congrArg₂ _ (List.append_nil _) ih

/-- A connection gets it once, if all have numbers of their own. -/
theorem supplies_tellAll_of_get? (hnodup : (m.lines.values.map Line.number).Nodup) {user : UserId}
    {l : Line} (hl : m.lines.get? user = some l) :
    Effect.supplies l.number (m.tellAll b command).effects = command.supplies := by
  rw [supplies_tellAll]
  have hmem : (user, l) ∈ m.lines.entries := Table.mem_entries_iff.2 hl
  unfold Table.values at hnodup
  rw [List.map_map] at hnodup
  generalize m.lines.entries = entries at hmem hnodup ⊢
  induction entries with
  | nil => exact absurd hmem List.not_mem_nil
  | cons e entries ih =>
    obtain ⟨hfirst, hrest⟩ := List.nodup_cons.1 hnodup
    rw [List.flatMap_cons]
    rcases List.mem_cons.1 hmem with rfl | hmem
    · have hothers : (entries.flatMap fun e =>
          if e.2.number = l.number then command.supplies else []) = [] :=
        List.flatMap_eq_nil_iff.2 fun e he => if_neg fun heq =>
          hfirst (List.mem_map.2 ⟨e, he, heq⟩)
      rw [if_pos rfl, hothers, List.append_nil]
    · have hne : e.2.number ≠ l.number := fun heq =>
        hfirst (List.mem_map.2 ⟨(user, l), hmem, heq.symm⟩)
      rw [if_neg hne, List.nil_append]
      exact ih hmem hrest

/-- Other connections do not get it. -/
theorem supplies_tellAll_of_ne {n : Nat}
    (hn : ∀ user l, m.lines.get? user = some l → l.number ≠ n) :
    Effect.supplies n (m.tellAll b command).effects = [] := by
  rw [supplies_tellAll]
  exact List.flatMap_eq_nil_iff.2 fun e he => if_neg (hn _ _ (Table.mem_entries_iff.1 he))

end Peer.Mesh

end VideoCall
