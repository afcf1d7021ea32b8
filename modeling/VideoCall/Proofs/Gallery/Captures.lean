import VideoCall.Proofs.Gallery.Independence
import VideoCall.Proofs.Peer.Supply

/-!
# Captured streams

Captured streams come and go by the wish of the participant, and all go when everything is released.
Nothing else that happens to a gallery touches them. When one of a type comes, the one of that type
goes: a connection that loses the one and gets the other has what is captured if it had it before.

## Main definitions

* `Gallery.captured` : the streams that are captured.
* `Gallery.Change.Captures` : the changes that let them come or go.

## Main results

* `Gallery.InOrder.captured_apply` : all other changes leave them as they are.
* `Gallery.captured_addLocal_perm` : one that comes takes the place of the one of its type.
* `Gallery.after?_vacating`, `Gallery.after?_replacing` : what is captured after one goes, and after
  one comes.
-/

namespace VideoCall

open Outcome Media
open Peer (Supply)

namespace Gallery

/-- The streams that are captured, the camera first. -/
def captured (g : Gallery) : List Stream := g.locals.values.map (·.stream)

/-- A change lets a captured stream come or go. -/
def Change.Captures : Change → Prop
  | .reset => True
  | .addLocal _ _ _ => True
  | .removeLocal _ _ => True
  | _ => False

variable {g : Gallery}

/-- Other changes leave the captured streams as they are, in some order. -/
theorem InOrder.captured_apply (h : g.InOrder) {change : Change} (hc : ¬ change.Captures) :
    (g.apply change).value.captured.Perm g.captured := by
  have hlocals : ∀ {g' : Gallery}, g'.locals = g.locals → g'.captured.Perm g.captured :=
    fun he => .of_eq (congrArg (fun t => t.values.map LocalStream.stream) he)
  cases change with
  | addTrack slot t raw => exact hlocals (locals_addTrack slot t raw)
  | removeTrack id => exact hlocals (locals_removeTrack g id)
  | unassociate user => exact hlocals (h.recast_unassociate user).locals
  | removePeer peer => exact hlocals (locals_removePeer g peer)
  | announce sender batch => exact hlocals (h.recast_announce sender batch).locals
  | setMirror type t =>
    change (g.setMirror type t).captured.Perm g.captured
    unfold Gallery.setMirror Table.modify
    split
    · split
      · rename_i m hm
        have hbefore : g.captured.Perm
            (m.stream :: (g.locals.erase type).values.map LocalStream.stream) :=
          (Table.values_perm_of_get? hm).map _
        exact ((Table.values_insert_perm _ _ _).map _).trans hbefore.symm
      · exact .refl _
    · exact .refl _
  | _ => exact absurd trivial hc

/-- What is captured is the stream of a type and what is left when that goes. -/
theorem captured_perm_of_get? {type : StreamType} {m : LocalStream}
    (hm : g.locals.get? type = some m) :
    g.captured.Perm (m.stream :: captured { g with locals := g.locals.erase type }) :=
  (Table.values_perm_of_get? hm).map _

/-- What is captured after one comes is that one and what is left when the one of its type goes. -/
theorem captured_addLocal_perm (g : Gallery) (recording : Bool) (type : StreamType)
    (stream : Stream) :
    (g.addLocal recording type stream).value.1.captured.Perm
      (stream :: (g.removeLocal recording type).value.1.captured) := by
  have hgone : (g.removeLocal recording type).value.1.locals.erase type =
      (g.removeLocal recording type).value.1.locals := by
    refine Table.erase_of_get?_eq_none ?_
    cases hm : g.locals.get? type with
    | none =>
      rw [removeLocal_of_none recording hm]
      exact hm
    | some m =>
      rw [value_removeLocal recording hm]
      simp [Table.get?_erase]
  have hinsert := (Table.values_insert_perm (g.removeLocal recording type).value.1.locals type
    ⟨type, stream, (g.removeLocal recording type).value.1.urls.mint? stream.id,
      mirrors type stream⟩).map LocalStream.stream
  rw [hgone] at hinsert
  exact hinsert

/-- What is taken from connections when the captured stream of a type goes. -/
def vacating (g : Gallery) (type : StreamType) : List Supply :=
  ((g.locals.get? type).map fun m => .taken m.stream).toList

variable (g : Gallery) (recording : Bool) (type : StreamType)

theorem after?_vacating : Supply.after? ↑g.captured (g.vacating type) =
    some ↑(g.removeLocal recording type).value.1.captured := by
  unfold vacating removeLocal
  cases hm : g.locals.get? type with
  | none => rfl
  | some m =>
    have hbefore : (g.captured : Multiset Stream) =
        m.stream ::ₘ ↑(captured { g with locals := g.locals.erase type }) :=
      Multiset.coe_eq_coe.2 (captured_perm_of_get? hm)
    rw [hbefore]
    exact Supply.after?_taken _ m.stream

theorem after?_replacing (stream : Stream) :
    Supply.after? ↑g.captured (g.vacating type ++ [.given stream]) =
      some ↑(g.addLocal recording type stream).value.1.captured := by
  have hafter : (↑(g.addLocal recording type stream).value.1.captured : Multiset Stream) =
      stream ::ₘ ↑(g.removeLocal recording type).value.1.captured :=
    Multiset.coe_eq_coe.2 (g.captured_addLocal_perm recording type stream)
  rw [Supply.after?_append, g.after?_vacating recording type, Option.bind_some,
    Supply.after?_given, hafter]

end Gallery

end VideoCall
