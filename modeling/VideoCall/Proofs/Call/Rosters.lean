import VideoCall.Proofs.Call.Isolation
import VideoCall.Proofs.Call.Supply
import VideoCall.Proofs.Call.Turns
import VideoCall.Proofs.Peer.Mesh

/-!
# Whom a roster connects

A roster names participants in any order, some of them several times, and the participant of the
call may be among them. Those to whom there is no connection yet are asked for one, in the order in
which the roster first names them, each once and with all captured streams. A refusal is told and
does not stop the others, and it is not remembered: the next roster that names the participant leads
to another attempt. Connections that are there stay as they are, whether the roster names them or
not, and a dial that waits for the roster is done in any case.

## Main definitions

* `Call.newcomers` : whom a roster names and who has no connection yet.
* `Peer.Switchboard.dealings` : what becomes of wishes for connections, one after the other.
* `Call.Welcomes` : what a roster comes to.

## Main results

* `Membership.firsts_eq` : who is new, described without a loop.
* `Call.opens_connectEach` : what becomes of the wishes for connections to newcomers.
* `Call.welcomes_meet` : what every roster comes to that counts.
-/

namespace VideoCall

open Outcome Peer Wire Media

/-! ### Who is new -/

namespace Membership

/-- Going through a list adds what is admitted and was not found, each at its first place. -/
private theorem foldl_firsts (keep : UserId → Bool) (users found : List UserId) :
    users.foldl
        (fun found u => if keep u && !found.contains u then found ++ [u] else found) found =
      found ++ (users.filter fun u => keep u && !found.contains u).eraseDups := by
  induction users generalizing found with
  | nil => exact (List.append_nil found).symm
  | cons u users ih =>
    rw [List.foldl_cons, ih, List.filter_cons]
    split
    · have hrest : (users.filter fun v => keep v && !(found ++ [u]).contains v) =
          (users.filter fun v => keep v && !found.contains v).filter fun v => !v == u := by
        rw [List.filter_filter]
        refine List.filter_congr fun v _ => ?_
        simp only [List.contains_append, List.contains_cons, List.contains_nil]
        cases keep v <;> cases found.contains v <;> cases v == u <;> rfl
      rw [hrest, List.eraseDups_cons, List.append_assoc, List.singleton_append]
    · rfl

/-- The first places of what is admitted. -/
theorem firsts_eq (keep : UserId → Bool) (users : List UserId) :
    firsts keep users = (users.filter keep).eraseDups := by
  refine (foldl_firsts keep users []).trans ?_
  simp

end Membership

/-- What is left of a list without repetitions has none. -/
theorem nodup_eraseDups {α : Type} [BEq α] [LawfulBEq α] : (l : List α) → l.eraseDups.Nodup
  | [] => List.nodup_nil
  | a :: l => by
    rw [List.eraseDups_cons, List.nodup_cons, List.mem_eraseDups, List.mem_filter]
    exact ⟨fun h => by simp at h, nodup_eraseDups _⟩
  termination_by l => l.length
  decreasing_by exact Nat.lt_succ_of_le (List.length_filter_le _ _)

namespace Call

/-- Whom a roster names and who has no connection yet, in the order in which it first names them. -/
def newcomers (c : Call) (r : Roster) : List UserId :=
  (r.peers.filter fun u => u ≠ c.membership.user && !c.mesh.contains u).eraseDups

theorem newPeers_meet (c : Call) (r : Roster) :
    (c.membership.meet r c.mesh.contains).2.newPeers = c.newcomers r :=
  Membership.firsts_eq _ _

theorem mem_newcomers_iff {c : Call} {r : Roster} {u : UserId} :
    u ∈ c.newcomers r ↔
      u ∈ r.peers ∧ u ≠ c.membership.user ∧ c.mesh.lines.get? u = none := by
  rw [newcomers, List.mem_eraseDups, List.mem_filter]
  simp [Mesh.contains, Table.contains]

theorem nodup_newcomers (c : Call) (r : Roster) : (c.newcomers r).Nodup := nodup_eraseDups _

end Call

/-! ### Wishes for connections -/

namespace Effect

/-- The dealings with the media stack by which connections to participants are asked for. -/
def requests (es : List Effect) : List LineEvent :=
  (lines es).filter fun
    | .opened _ (.participant _) _ => true
    | .refused (.participant _) _ => true
    | _ => false

variable {es fs : List Effect}

@[simp]
theorem requests_append : requests (es ++ fs) = requests es ++ requests fs := by
  simp [requests]

/-- A wish for a connection is one for a connection to somebody. -/
theorem requests_eq_nil (h : sought es = []) : requests es = [] := by
  refine List.filter_eq_nil_iff.2 fun l hl => ?_
  have hnobody := List.filterMap_eq_nil_iff.1 h l hl
  cases l with
  | opened n key options => cases key <;> first | exact Bool.false_ne_true | cases hnobody
  | refused key options => cases key <;> first | exact Bool.false_ne_true | cases hnobody
  | _ => exact Bool.false_ne_true

end Effect

namespace Peer.Switchboard

/-- What becomes of wishes for connections to some participants, one after the other and with the
given options: each is refused, or the connection is opened under the next number. -/
def dealings (refusals : Refusals) (options : Options) : Nat → List UserId → List LineEvent
  | _, [] => []
  | n, u :: us =>
    if refusals.opening (.participant u) then
      .refused (.participant u) options :: dealings refusals options n us
    else .opened n (.participant u) options :: dealings refusals options (n + 1) us

variable {refusals : Refusals} {options : Options} {n : Nat} {us : List UserId} {l : LineEvent}

theorem mem_dealings (h : l ∈ dealings refusals options n us) :
    (∃ u ∈ us, l = .refused (.participant u) options) ∨
      ∃ u ∈ us, ∃ m, n ≤ m ∧ l = .opened m (.participant u) options := by
  induction us generalizing n with
  | nil => cases h
  | cons u us ih =>
    rw [dealings] at h
    split at h
    · rcases List.mem_cons.1 h with rfl | h
      · exact Or.inl ⟨u, List.mem_cons_self, rfl⟩
      · rcases ih h with ⟨v, hv, rfl⟩ | ⟨v, hv, m, hm, rfl⟩
        · exact Or.inl ⟨v, List.mem_cons_of_mem _ hv, rfl⟩
        · exact Or.inr ⟨v, List.mem_cons_of_mem _ hv, m, hm, rfl⟩
    · rcases List.mem_cons.1 h with rfl | h
      · exact Or.inr ⟨u, List.mem_cons_self, n, Nat.le_refl n, rfl⟩
      · rcases ih h with ⟨v, hv, rfl⟩ | ⟨v, hv, m, hm, rfl⟩
        · exact Or.inl ⟨v, List.mem_cons_of_mem _ hv, rfl⟩
        · exact Or.inr ⟨v, List.mem_cons_of_mem _ hv, m, by omega, rfl⟩

end Peer.Switchboard

namespace Call

/-- The options of connections to participants. -/
def peerOptions (c : Call) (initiator : Bool) : Options :=
  ⟨initiator, c.board.iceServers, true, c.captured⟩

/-- What wishes for connections to some participants come to. -/
structure Opens (c : Call) (initiator : Bool) (users : List UserId) (o : Outcome Call) : Prop where
  lines : Effect.lines o.effects = Switchboard.dealings c.board.refusals (c.peerOptions initiator)
    c.board.opened users
  opened_le : c.board.opened ≤ o.value.board.opened
  refusals : o.value.board.refusals = c.board.refusals
  /-- Each refusal is told. -/
  complaints : Effect.complaints o.effects =
    (users.filter fun u => c.board.refusals.opening (.participant u)).map fun _ =>
      (CallError.peer Switchboard.refusal).clientMessage
  kept : ∀ u, u ∉ users ∨ c.board.refusals.opening (.participant u) = true →
    o.value.mesh.lines.get? u = c.mesh.lines.get? u
  made : ∀ u ∈ users, c.board.refusals.opening (.participant u) = false →
    ∃ n, o.value.mesh.lines.get? u = some ⟨n, .created, initiator⟩ ∧
      .opened n (.participant u) (c.peerOptions initiator) ∈ Effect.lines o.effects

theorem connectTo_of_refused {c : Call} {user : UserId} (hnone : c.mesh.lines.get? user = none)
    (hrefused : c.board.refusals.opening (.participant user) = true) (initiator : Bool) :
    c.connectTo initiator user = ⟨c,
      [.line (.refused (.participant user) (c.peerOptions initiator)),
        .published (.notification .error (CallError.peer Switchboard.refusal).clientMessage)]⟩ := by
  unfold connectTo
  rw [Mesh.create_of_refused initiator c.captured hnone hrefused]
  rfl

theorem connectTo_of_accepted {c : Call} {user : UserId} (hnone : c.mesh.lines.get? user = none)
    (haccepted : c.board.refusals.opening (.participant user) = false) (initiator : Bool) :
    c.connectTo initiator user = ⟨{ c with
        mesh := ⟨c.mesh.lines.insert user ⟨c.board.opened, .created, initiator⟩⟩
        board := { c.board with opened := c.board.opened + 1 } },
      [.line (.opened c.board.opened (.participant user) (c.peerOptions initiator)),
        .measured (.count .peersCreated)]⟩ := by
  unfold connectTo
  rw [Mesh.create_of_none initiator c.captured hnone haccepted]
  rfl

section Opens

variable {c : Call} {initiator : Bool} {user : UserId} {users : List UserId} {o : Outcome Call}

/-- A refusal comes before the other wishes and has no part in them. -/
theorem Opens.refused (hnone : c.mesh.lines.get? user = none)
    (hrefused : c.board.refusals.opening (.participant user) = true)
    (h : Opens (c.connectTo initiator user).value initiator users o) :
    Opens c initiator (user :: users)
      ⟨o.value, (c.connectTo initiator user).effects ++ o.effects⟩ := by
  rw [connectTo_of_refused hnone hrefused] at h ⊢
  refine ⟨?_, h.opened_le, h.refusals, ?_, fun u hu => h.kept u ?_, fun u hu haccepted => ?_⟩
  · rw [Switchboard.dealings, if_pos hrefused, ← h.lines]
    rfl
  · rw [List.filter_cons, if_pos hrefused, List.map_cons, ← h.complaints]
    rfl
  · exact hu.imp_left fun hu hmem => hu (List.mem_cons_of_mem _ hmem)
  · rcases List.mem_cons.1 hu with rfl | hu
    · cases hrefused.symm.trans haccepted
    · obtain ⟨n, hn, hline⟩ := h.made u hu haccepted
      exact ⟨n, hn, List.mem_cons_of_mem _ hline⟩

/-- A connection that is opened stays, whatever becomes of the other wishes. -/
theorem Opens.accepted (hnone : c.mesh.lines.get? user = none)
    (haccepted : c.board.refusals.opening (.participant user) = false) (huser : user ∉ users)
    (h : Opens (c.connectTo initiator user).value initiator users o) :
    Opens c initiator (user :: users)
      ⟨o.value, (c.connectTo initiator user).effects ++ o.effects⟩ := by
  rw [connectTo_of_accepted hnone haccepted] at h ⊢
  have hget : ∀ u, (c.mesh.lines.insert user ⟨c.board.opened, .created, initiator⟩).get? u =
      if u = user then some ⟨c.board.opened, .created, initiator⟩ else c.mesh.lines.get? u :=
    fun u => by simp
  have hrefused : ¬ c.board.refusals.opening (.participant user) = true := fun hrefused => by
    cases hrefused.symm.trans haccepted
  refine ⟨?_, Nat.le_of_succ_le h.opened_le, h.refusals, ?_, fun u hu => ?_, fun u hu hu' => ?_⟩
  · rw [Switchboard.dealings, if_neg hrefused]
    exact congrArg _ h.lines
  · rw [List.filter_cons, if_neg hrefused, ← h.complaints]
    rfl
  · have hne : u ≠ user := by
      rintro rfl
      rcases hu with hu | hu
      · exact hu List.mem_cons_self
      · exact hrefused hu
    have hkept := h.kept u (hu.imp_left fun hu hmem => hu (List.mem_cons_of_mem _ hmem))
    exact hkept.trans ((hget u).trans (if_neg hne))
  · rcases List.mem_cons.1 hu with rfl | hu
    · have hkept := h.kept u (Or.inl huser)
      exact ⟨_, hkept.trans ((hget u).trans (if_pos rfl)), List.mem_cons_self⟩
    · obtain ⟨n, hn, hline⟩ := h.made u hu hu'
      exact ⟨n, hn, List.mem_cons_of_mem _ hline⟩

end Opens

/-- What becomes of wishes for connections to participants to whom there is none. -/
theorem opens_connectEach (initiator : Bool) {users : List UserId} (hnodup : users.Nodup)
    {c : Call} (hnone : ∀ u ∈ users, c.mesh.lines.get? u = none) :
    Opens c initiator users (forEach (fun c user => connectTo c initiator user) users c) := by
  induction users generalizing c with
  | nil =>
    exact ⟨rfl, Nat.le_refl _, rfl, rfl, fun _ _ => rfl, fun _ hu => absurd hu List.not_mem_nil⟩
  | cons user users ih =>
    obtain ⟨huser, hnodup⟩ := List.nodup_cons.1 hnodup
    obtain ⟨hnew, hnone⟩ := List.forall_mem_cons.1 hnone
    rw [forEach_cons]
    cases hrefused : c.board.refusals.opening (.participant user) with
    | true =>
      refine Opens.refused hnew hrefused (ih hnodup fun u hu => ?_)
      rw [connectTo_of_refused hnew hrefused]
      exact hnone u hu
    | false =>
      refine Opens.accepted hnew hrefused huser (ih hnodup fun u hu => ?_)
      have hne : u ≠ user := fun heq => huser (heq ▸ hu)
      rw [connectTo_of_accepted hnew hrefused]
      simpa [hne] using hnone u hu

theorem Opens.requests {c : Call} {initiator : Bool} {users : List UserId} {o : Outcome Call}
    (h : Opens c initiator users o) :
    Effect.requests o.effects =
      Switchboard.dealings c.board.refusals (c.peerOptions initiator) c.board.opened users := by
  unfold Effect.requests
  rw [h.lines]
  refine List.filter_eq_self.2 fun l hl => ?_
  rcases Switchboard.mem_dealings hl with ⟨u, -, rfl⟩ | ⟨u, -, m, -, rfl⟩ <;> rfl

/-! ### Connections that are there -/

/-- New connections are no concern of those that there are. -/
theorem Opens.unconcerned {c : Call} {initiator : Bool} {users : List UserId} {o : Outcome Call}
    (h : Opens c initiator users o) {n : Nat} (hn : n < c.board.opened) :
    Emits (fun e => ¬ e.Concerns n) o := by
  intro e he hconcerns
  cases e with
  | line l =>
    have hl : l ∈ Effect.lines o.effects := List.mem_filterMap.2 ⟨_, he, rfl⟩
    rw [h.lines] at hl
    rcases Switchboard.mem_dealings hl with ⟨u, -, rfl⟩ | ⟨u, -, m, hm, rfl⟩
    · exact hconcerns
    · exact absurd hn (Nat.not_lt_of_le (hconcerns ▸ hm))
  | _ => exact hconcerns

/-- The recording is no concern of other connections. -/
theorem unconcerned_applyRecording {c : Call} {n : Nat} (hn : n < c.board.opened)
    (hline : c.recorder.line? ≠ some n) (recording : Bool) (url : Option String) :
    Emits (fun e => ¬ e.Concerns n) (c.applyRecording recording url) := by
  have hpublish : ∀ b b', Emits (fun e => ¬ e.Concerns n) (when b (publishRecording b')) :=
    fun b b' => ((within_publishRecording b').when b).mono fun _ he =>
      he.not_concerns (by decide) (by decide) (by decide) n
  unfold applyRecording
  split
  · refine Emits.bind ?_ (.bind (hpublish _ _) (.pure _))
    exact c.recorder.emits_start (fun _ => not_false) (fun _ => (Nat.ne_of_lt hn).symm)
      (fun _ => not_false) _ _ _ _
  · refine Emits.bind ?_ (.bind (hpublish _ _) (.pure _))
    unfold Recorder.stop
    split
    · exact .pure _
    · rename_i s hs
      refine .bind (.emit fun hs' => hline ?_) (.bind (.emit not_false) (.pure _))
      rw [Recorder.line?, hs, ← hs']
      rfl

theorem unconcerned_conclusion {c : Call} {n : Nat} (hn : n < c.board.opened)
    (hline : c.recorder.line? ≠ some n) (recording : Bool) (url : Option String) :
    Emits (fun e => ¬ e.Concerns n)
      (c.settleCounted .joined .done >>= fun c => c.applyRecording recording url) := by
  refine .bind ((within_settleCounted _ _ _).mono fun _ he =>
    he.not_concerns (by decide) (by decide) (by decide) n) ?_
  rw [value_settleCounted]
  exact unconcerned_applyRecording (c := { c with pending := none }) hn hline recording url

theorem mesh_applyRecording (c : Call) (recording : Bool) (url : Option String) :
    (c.applyRecording recording url).value.mesh = c.mesh := by
  unfold applyRecording
  split <;> rfl

/-! ### Participants without a connection -/

/-- A participant to whom there is no connection gets one only if one is opened to them. -/
theorem leads_absent (u : UserId) {c : Call} {o : Outcome Call} (h : Move c o) :
    Leads (fun es => c.mesh.lines.get? u = none ∨ ∃ n, (n, .participant u) ∈ Effect.opened es) o
      fun c es => c.mesh.lines.get? u = none ∨ ∃ n, (n, .participant u) ∈ Effect.opened es := by
  rintro es (hnone | ⟨n, hn⟩)
  · cases h with
    | pass hr _ => exact Or.inl (hr.mesh ▸ hnone)
    | @connect user initiator options b _ _ _ =>
      by_cases hu : u = user
      · subst hu
        refine Or.inr ⟨c.board.opened, ?_⟩
        rw [Effect.opened_append]
        exact List.mem_append_right _ List.mem_cons_self
      · refine Or.inl ?_
        simpa [hu] using hnone
    | @phase user l p es' hl _ _ =>
      have hu : u ≠ user := by
        rintro rfl
        cases hl.symm.trans hnone
      refine Or.inl ?_
      simpa [hu] using hnone
    | tearDown _ _ _ =>
      refine Or.inl ?_
      simp [Table.get?_erase, hnone]
    | change _ hr _ _ _ => exact Or.inl (hr.mesh ▸ hnone)
    | record _ _ _ _ _ _ => exact Or.inl hnone
    | stop _ _ _ _ => exact Or.inl hnone
    | release _ _ hmesh _ _ _ _ _ _ _ => exact Or.inl (by rw [hmesh]; rfl)
  · refine Or.inr ⟨n, ?_⟩
    rw [Effect.opened_append]
    exact List.mem_append_left _ hn

/-- The participant of a call is the same for ever. -/
theorem Move.user {c : Call} {o : Outcome Call} (h : Move c o) :
    o.value.membership.user = c.membership.user := by
  cases h with
  | pass hr _ => exact hr.user
  | change _ hr _ _ _ => exact hr.user
  | release huser _ _ _ _ _ _ _ _ _ => exact huser
  | _ => rfl

theorem Moves.user {c : Call} {o : Outcome Call} (h : Moves c o) :
    o.value.membership.user = c.membership.user := by
  induction h with
  | none c => rfl
  | cons h _ ih => exact ih.trans h.user

/-- A roster comes in that names a participant. -/
def Moment.Names (m : Moment) (u : UserId) : Prop :=
  ∃ r, m.input = .relay (.message (.roster r)) ∧ u ∈ r.peers

/-! ### What a roster comes to -/

/-- What a roster comes to that counts, if the media stack refuses what it does at that time. -/
structure Welcomes (c : Call) (r : Roster) (refusals : Refusals) (o : Outcome Call) : Prop where
  /-- For every newcomer a connection is asked for once, in order and with the same options, whether
  it is refused or not; for nobody else one is asked for. -/
  asked : Effect.requests o.effects =
    Switchboard.dealings refusals (c.peerOptions (r.initiator = c.membership.user))
      c.board.opened (c.newcomers r)
  /-- Who is connected afterwards was connected before, or is a newcomer who was not refused. -/
  connected : ∀ u, o.value.mesh.contains u = true ↔
    c.mesh.contains u = true ∨
      u ∈ c.newcomers r ∧ refusals.opening (.participant u) = false
  /-- Connections that are there stay as they are, and nothing is done to them. -/
  kept : ∀ u l, c.mesh.lines.get? u = some l →
    o.value.mesh.lines.get? u = some l ∧ ∀ e ∈ o.effects, ¬ e.Concerns l.number
  made : ∀ u ∈ c.newcomers r, refusals.opening (.participant u) = false → ∃ n,
    o.value.mesh.lines.get? u = some ⟨n, .created, r.initiator = c.membership.user⟩ ∧
      .opened n (.participant u) (c.peerOptions (r.initiator = c.membership.user)) ∈
        Effect.requests o.effects
  /-- Each refusal is told, and nothing else is told as an error. -/
  told : Effect.complaints o.effects =
    ((c.newcomers r).filter fun u => refusals.opening (.participant u)).map fun _ =>
      (CallError.peer Switchboard.refusal).clientMessage
  /-- A dial that waits is done. -/
  done : Effect.answers o.effects = (c.pending.map fun p => (p.ticket, .done)).toList
  settled : o.value.pending = none
  /-- Who was refused is a newcomer to the next roster that names them. -/
  retried : ∀ u ∈ c.newcomers r, refusals.opening (.participant u) = true →
    ∀ moments, (∀ m ∈ moments, ¬ m.Names u) → ∀ r', u ∈ r'.peers →
      u ∈ (o.value.run moments).value.newcomers r'

/-- The state in which a roster leads to connections: what it says of the room is known. -/
def informed (c : Call) (r : Roster) : Call :=
  { c with
    membership := { c.membership with nicknames := r.nicknames }
    isInitiator := some (r.initiator = c.membership.user) }

theorem onRoster_eq (c : Call) (r : Roster) :
    c.onRoster r = (do
      notify .info ("Connected users: " ++ toString r.nicknames.size)
      let c' ← forEach (fun c' u => connectTo c' (r.initiator = c.membership.user) u)
        (c.newcomers r) (c.informed r)
      let c' ← c'.settleCounted .joined .done
      c'.applyRecording r.recording (nonempty r.recordUrl)) := by
  rw [← newPeers_meet]
  rfl

/-- What comes after the connections: none is asked for, nothing is told as an error, and a dial
that waits is done. -/
structure Concludes (c : Call) (o : Outcome Call) : Prop where
  mesh : o.value.mesh = c.mesh
  pending : o.value.pending = none
  requests : Effect.requests o.effects = []
  complaints : Effect.complaints o.effects = []
  answers : Effect.answers o.effects = (c.pending.map fun p => (p.ticket, .done)).toList

theorem concludes (c : Call) (recording : Bool) (url : Option String) :
    Concludes c (c.settleCounted .joined .done >>= fun c => c.applyRecording recording url) := by
  let o := c.settleCounted .joined .done >>= fun c => c.applyRecording recording url
  have hoff : Emits (Effect.OffMesh none) o :=
    .bind ((within_settleCounted _ _ _).mono fun _ he => he.offMesh (by decide) (by decide) _)
      (offMesh_applyRecording _ _ _ _)
  have hwords : Emits (Effect.Within (.answer :: Effect.Part.recorded)) o :=
    .bind ((within_settleCounted _ _ _).widen (by decide))
      ((within_applyRecording _ _ _).widen (by decide))
  have hanswers : Effect.answers o.effects =
      Effect.answers (c.settleCounted .joined .done).effects :=
    answers_bind_of_right (within_applyRecording _ _ _) (by decide)
  have houtlook := outlook_applyRecording (c.settleCounted .joined .done).value recording url
  exact {
    mesh := by rw [value_bind, mesh_applyRecording, value_settleCounted]
    pending := by
      rw [outlook_settleCounted] at houtlook
      exact congrArg Outlook.pending houtlook
    requests := Effect.requests_eq_nil (Effect.sought_eq_nil hoff)
    complaints := Effect.complaints_eq_nil hwords (by decide)
    answers := hanswers.trans (c.answers_settleCounted .done .joined) }

/-- An input that bears on connections to participants is a roster, or opens none. -/
theorem Input.roster_of_bearsOnMesh {i : Input} (h : i.bearsOnMesh = true) :
    (∃ r, i = .relay (.message (.roster r))) ∨ .opening ∉ i.parts := by
  unfold bearsOnMesh at h
  split at h
  · exact Or.inl ⟨_, rfl⟩
  · exact Or.inr (by simp [parts, Effect.Part.ofIntent, Effect.Part.change])
  · exact Or.inr (by simp [parts, Effect.Part.ofIntent, Effect.Part.change])
  · cases h

section Roster

variable {c : Call} {r : Roster}

/-- What becomes of the wishes for connections that a roster leads to. -/
theorem opens_newcomers (c : Call) (r : Roster) :
    Opens (c.informed r) (r.initiator = c.membership.user) (c.newcomers r)
      (forEach (fun c' u => connectTo c' (r.initiator = c.membership.user) u) (c.newcomers r)
        (c.informed r)) :=
  opens_connectEach _ (c.nodup_newcomers r) fun _ hu => (mem_newcomers_iff.1 hu).2.2

theorem mesh_onRoster (c : Call) (r : Roster) :
    (c.onRoster r).value.mesh =
      (forEach (fun c' u => connectTo c' (r.initiator = c.membership.user) u) (c.newcomers r)
        (c.informed r)).value.mesh := by
  rw [onRoster_eq]
  exact (concludes _ _ _).mesh

/-- A roster changes nothing for those who are no newcomers. -/
theorem get?_lines_onRoster {u : UserId} (hu : u ∉ c.newcomers r) :
    (c.onRoster r).value.mesh.lines.get? u = c.mesh.lines.get? u := by
  rw [mesh_onRoster]
  exact (c.opens_newcomers r).kept u (Or.inl hu)

/-- Nothing but a roster leads to connections to participants. -/
theorem of_mem_opened_meet {m : Moment} {n : Nat} {u : UserId}
    (h : (n, .participant u) ∈ Effect.opened (c.meet m).effects) :
    ∃ r, m.input = .relay (.message (.roster r)) := by
  cases hi : m.input.bearsOnMesh with
  | false => cases Effect.eq_recording_of_offMesh (c.offMesh_meet none hi) h
  | true =>
    refine (Input.roster_of_bearsOnMesh hi).resolve_right fun hparts => ?_
    rw [Effect.opened_eq_nil (c.within_meet m) hparts] at h
    cases h

/-- A participant to whom there is no connection gets none unless a roster names them. -/
theorem get?_lines_meet {u : UserId} (hnone : c.mesh.lines.get? u = none) {m : Moment}
    (hm : ¬ m.Names u) : (c.meet m).value.mesh.lines.get? u = none := by
  have habsent := (c.moves_meet m).leads (fun _ _ => leads_absent u) [] (Or.inl hnone)
  refine habsent.elim id fun ⟨n, hn⟩ => ?_
  obtain ⟨r, hr⟩ := of_mem_opened_meet hn
  unfold meet
  rw [hr]
  change (onMessage _ (.roster r)).value.mesh.lines.get? u = none
  unfold onMessage
  split
  · refine (get?_lines_onRoster fun hu => hm ⟨r, hr, ?_⟩).trans hnone
    exact (mem_newcomers_iff.1 hu).1
  · exact hnone

theorem get?_lines_run {u : UserId} {moments : List Moment} (hm : ∀ m ∈ moments, ¬ m.Names u)
    (hnone : c.mesh.lines.get? u = none) :
    (c.run moments).value.mesh.lines.get? u = none :=
  forEach_induction (p := fun c : Call => c.mesh.lines.get? u = none) hnone
    fun _ hc m hmem => get?_lines_meet hc (hm m hmem)

/-- A roster is no concern of connections that are there. -/
theorem unconcerned_onRoster {n : Nat} (hn : n < c.board.opened)
    (hline : c.recorder.line? ≠ some n) : Emits (fun e => ¬ e.Concerns n) (c.onRoster r) := by
  have hopens := c.opens_newcomers r
  obtain ⟨mesh, board, hvalue⟩ := (c.informed r).exists_value_connectEach
    (r.initiator = c.membership.user) (c.newcomers r)
  have hrecorder := congrArg Call.recorder hvalue
  rw [onRoster_eq]
  refine .bind (.emit not_false) (.bind (hopens.unconcerned hn)
    (unconcerned_conclusion (Nat.lt_of_lt_of_le hn hopens.opened_le) ?_ _ _))
  rw [hrecorder]
  exact hline

/-- Who was refused is a newcomer to the next roster that names them. -/
theorem mem_newcomers_run {u : UserId} (hu : u ∈ c.newcomers r)
    (hrefused : c.board.refusals.opening (.participant u) = true) {moments : List Moment}
    (hm : ∀ m ∈ moments, ¬ m.Names u) {r' : Roster} (hr' : u ∈ r'.peers) :
    u ∈ ((c.onRoster r).value.run moments).value.newcomers r' := by
  obtain ⟨-, hother, hnone⟩ := mem_newcomers_iff.1 hu
  have habsent : (c.onRoster r).value.mesh.lines.get? u = none := by
    rw [mesh_onRoster]
    exact ((c.opens_newcomers r).kept u (Or.inr hrefused)).trans hnone
  have huser := ((c.onRoster r).value.moves_run moments).user.trans (c.moves_onRoster r).user
  exact mem_newcomers_iff.2 ⟨hr', huser ▸ hother, get?_lines_run hm habsent⟩

/-- Who is connected after a roster. -/
theorem contains_onRoster (u : UserId) : (c.onRoster r).value.mesh.contains u = true ↔
    c.mesh.contains u = true ∨
      u ∈ c.newcomers r ∧ c.board.refusals.opening (.participant u) = false := by
  have hopens := c.opens_newcomers r
  rw [Mesh.contains_eq_true_iff, Mesh.contains_eq_true_iff, mesh_onRoster]
  by_cases hu : u ∈ c.newcomers r ∧ c.board.refusals.opening (.participant u) = false
  · obtain ⟨n, hn, -⟩ := hopens.made u hu.1 hu.2
    exact iff_of_true ⟨_, hn⟩ (Or.inr hu)
  · have hkept := hopens.kept u (or_iff_not_imp_right.2 fun hrefused hmem =>
      hu ⟨hmem, eq_false_of_ne_true hrefused⟩)
    rw [hkept, or_iff_left hu]
    rfl

/-- A connection that is there stays as it is, and a roster is no concern of it. -/
theorem kept_onRoster {es : List Effect} (hw : Wired c es) {u : UserId} {l : Line}
    (hl : c.mesh.lines.get? u = some l) :
    (c.onRoster r).value.mesh.lines.get? u = some l ∧
      ∀ e ∈ (c.onRoster r).effects, ¬ e.Concerns l.number := by
  have hopened := hw.line_opened u l.number (by simp [wiring, hl])
  refine ⟨(get?_lines_onRoster fun hu => ?_).trans hl,
    unconcerned_onRoster (hw.opened_lt _ _ hopened) fun hline => ?_⟩
  · cases (mem_newcomers_iff.1 hu).2.2.symm.trans hl
  · cases hw.unique _ _ _ hopened (hw.session_opened _ hline)

/-- What a roster comes to in a state in which the wiring of the call is sound. -/
theorem welcomes_onRoster {es : List Effect} (hw : Wired c es) :
    Welcomes c r c.board.refusals (c.onRoster r) := by
  have hopens := c.opens_newcomers r
  obtain ⟨mesh, board, hvalue⟩ := (c.informed r).exists_value_connectEach
    (r.initiator = c.membership.user) (c.newcomers r)
  -- the wishes for connections, and what comes after them
  let o := forEach (fun c' u => connectTo c' (r.initiator = c.membership.user) u) (c.newcomers r)
    (c.informed r)
  have hconcludes := o.value.concludes r.recording (nonempty r.recordUrl)
  have heffects : (c.onRoster r).effects = .published (.notification .info
      ("Connected users: " ++ toString r.nicknames.size)) :: (o.effects ++
        (o.value.settleCounted .joined .done >>= fun c =>
          c.applyRecording r.recording (nonempty r.recordUrl)).effects) := by
    rw [onRoster_eq]
    rfl
  have hasked : Effect.requests (c.onRoster r).effects = Effect.requests o.effects := by
    rw [heffects, ← List.singleton_append, Effect.requests_append, Effect.requests_append,
      hconcludes.requests, List.append_nil]
    rfl
  have hquiet : Effect.answers o.effects = [] :=
    Effect.answers_eq_nil (Emits.forEach (fun c u _ => c.within_connectTo _ u) _) (by decide)
  exact {
    asked := hasked.trans hopens.requests
    connected := contains_onRoster
    kept := fun u l hl => kept_onRoster hw hl
    made := fun u hu haccepted => by
      obtain ⟨n, hn, hline⟩ := hopens.made u hu haccepted
      refine ⟨n, ?_, ?_⟩
      · rw [mesh_onRoster]
        exact hn
      · rw [hasked, hopens.requests]
        rw [hopens.lines] at hline
        exact hline
    told := by
      rw [heffects, ← List.singleton_append, Effect.complaints_append, Effect.complaints_append,
        hconcludes.complaints, List.append_nil, hopens.complaints]
      rfl
    done := by
      rw [heffects, ← List.singleton_append, Effect.answers_append, Effect.answers_append,
        hquiet, hconcludes.answers, congrArg Call.pending hvalue]
      rfl
    settled := by
      rw [onRoster_eq]
      exact hconcludes.pending
    retried := fun u hu hrefused moments hm r' hr' => mem_newcomers_run hu hrefused hm hr' }

/-- What every roster comes to that counts. -/
theorem welcomes_meet (h : c.Reachable) (hactive : c.membership.active = true) (r : Roster)
    (now : Nat) (refusals : Refusals) :
    Welcomes c r refusals (c.meet ⟨now, refusals, .relay (.message (.roster r))⟩) := by
  obtain ⟨s, room, user, urls, moments, rfl⟩ := h
  let c := ((fresh s room user urls .none).run moments).value
  let c' : Call := { c with board := { c.board with refusals := refusals } }
  have hw : Wired c' ((fresh s room user urls .none).run moments).effects :=
    wired_run s room user urls moments
  have hmeet : c.meet ⟨now, refusals, .relay (.message (.roster r))⟩ = c'.onRoster r :=
    if_pos hactive
  rw [hmeet]
  -- what the media stack refuses matters to the wishes alone
  have hwelcomes : Welcomes c' r refusals (c'.onRoster r) := welcomes_onRoster hw
  exact ⟨hwelcomes.asked, hwelcomes.connected, hwelcomes.kept, hwelcomes.made, hwelcomes.told,
    hwelcomes.done, hwelcomes.settled, hwelcomes.retried⟩

/-- A call that Ann is in already, with a dial that waits. -/
def meeting : Call :=
  ((fresh (.ofRelay "ws://relay") ⟨"room"⟩ ⟨"me"⟩ (.fresh fun _ _ => false) .none).run
    [⟨0, .none, .intent 0 (.dial "me")⟩,
      ⟨1, .none, .relay (.message (.roster ⟨⟨"ann"⟩, [⟨"ann"⟩, ⟨"me"⟩], ∅, false, ""⟩))⟩,
      ⟨2, .none, .intent 1 (.dial "me")⟩]).value

/-- A roster without Ann, with repetitions. -/
def crowd : Roster :=
  ⟨⟨"me"⟩, [⟨"cleo"⟩, ⟨"me"⟩, ⟨"bob"⟩, ⟨"cleo"⟩, ⟨"bob"⟩, ⟨"dan"⟩], ∅, true, ""⟩

/-- A media stack that refuses connections to Bob. -/
def notBob : Refusals := { Refusals.none with opening := fun key => key = .participant ⟨"bob"⟩ }

/-- Ann stays, Cleo and Dan are connected, and Bob is not, but will be asked for again. -/
theorem welcomes_meet_crowd :
    meeting.Reachable ∧ meeting.membership.active = true ∧
      meeting.newcomers crowd = [⟨"cleo"⟩, ⟨"bob"⟩, ⟨"dan"⟩] ∧
      Welcomes meeting crowd notBob
        (meeting.meet ⟨3, notBob, .relay (.message (.roster crowd))⟩) := by
  have hreachable : meeting.Reachable := .run _ _ _ _ _
  have hactive : meeting.membership.active = true := by decide
  exact ⟨hreachable, hactive, by decide, welcomes_meet hreachable hactive crowd 3 notBob⟩

end Roster

end Call

end VideoCall
