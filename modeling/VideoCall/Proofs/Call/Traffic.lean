import Mathlib.Data.List.Induction
import VideoCall.Proofs.Call.OffTraffic
import VideoCall.Proofs.Call.Wiring

/-!
# Envelopes are neither lost nor repeated

An envelope that a connection has for a participant goes out to the relay, so long as there is a
connection to that participant. One that comes in from a participant is passed on to the connection
to them, if there is one and the call has joined; it is dropped otherwise, which is counted once and
says why. Nothing else goes out or comes in, so on either side the envelopes are the same as on the
other, in the same order.

## Main definitions

* `Call.gather` : what the moments of a history yield.
* `Call.reported`, `Call.addressed`, `Call.mislaid` : the envelopes that go out, that come in, and
  that are dropped.
* `Call.Transit` : what a moment does to the traffic.

## Main results

* `Call.transit_meet` : every moment does one of these things.
* `Call.traffic_run` : the traffic of every history.
-/

namespace VideoCall.Call

open Outcome Peer Wire Media
open Effect (OffTraffic)

/-- What the inputs of a history yield, each by the call that reacts to it. -/
def gather {α : Type} (yield : Call → Input → List α) (c : Call) : List Moment → List α
  | [] => []
  | m :: ms => yield c m.input ++ (c.meet m).value.gather yield ms

theorem gather_concat {α : Type} (yield : Call → Input → List α) (c : Call)
    (moments : List Moment) (m : Moment) :
    c.gather yield (moments ++ [m]) =
      c.gather yield moments ++ yield (c.run moments).value m.input := by
  induction moments generalizing c with
  | nil => exact List.append_nil _
  | cons m' ms ih =>
    rw [List.cons_append, gather, gather, ih, List.append_assoc]
    rfl

/-! ### The traffic of an input -/

/-- The envelope that a connection has for a participant, while there is one to them. -/
def reported (u : UserId) (c : Call) : Input → List Signal
  | .report _ (.participant v) (.signal s) => if v = u ∧ c.mesh.contains u = true then [s] else []
  | _ => []

/-- The envelope that comes in from a participant, while the call has joined and the connection to
them has the given number. -/
def addressed (u : UserId) (n : Nat) (c : Call) : Input → List Signal
  | .relay (.message (.signal v s)) =>
    if v = u ∧ c.membership.active = true ∧ (c.mesh.lines.get? u).map Line.number = some n then [s]
    else []
  | _ => []

/-- Why a message that comes in is dropped, if it is: the call has not joined, or the message is an
envelope and there is no connection to its sender. -/
def mislaid (c : Call) : Input → List DropReason
  | .relay (.message (.signal u _)) =>
    if c.membership.active = false then [.notJoined]
    else if c.mesh.contains u = true then [] else [.unknownPeer]
  | .relay (.message message) => if c.membership.admits message = true then [] else [.notJoined]
  | _ => []

/-- What the reaction to an input does to the traffic. -/
inductive Transit (c : Call) (i : Input) : List Effect → Prop
  /-- It leaves the traffic alone. -/
  | off {es : List Effect} (hreported : ∀ u, c.reported u i = [])
      (haddressed : ∀ u n, c.addressed u n i = []) (hmislaid : c.mislaid i = [])
      (hes : ∀ e ∈ es, e.OffTraffic) : Transit c i es
  /-- An envelope goes out. -/
  | post {n : Nat} {u : UserId} {s : Signal} (hi : i = .report n (.participant u) (.signal s))
      (hu : c.mesh.contains u = true) :
      Transit c i [.sent ⟨c.membership.room, .signal u s⟩]
  /-- An envelope is passed on to the connection that it is for. -/
  | deliver {u : UserId} {s : Signal} {l : Line} {accepted : Bool}
      (hi : i = .relay (.message (.signal u s))) (hactive : c.membership.active = true)
      (hl : c.mesh.lines.get? u = some l) :
      Transit c i [.line (.told l.number (.signal s) accepted)]
  /-- A message is dropped. -/
  | drop {message : Incoming} {reason : DropReason} (hi : i = .relay (.message message))
      (haddressed : ∀ u n, c.addressed u n i = []) (hmislaid : c.mislaid i = [reason]) :
      Transit c i [.measured (.count (.signalsDropped reason))]
  /-- The recording service replied, which is passed on to the connection to it. -/
  | answer {session : Nat} {result : Except Recorder.JoinError Signal} {s : Recorder.Session}
      {x : Signal} {accepted : Bool} (hi : i = .reply session result)
      (hs : c.recorder.session = some s) :
      Transit c i [.line (.told s.line (.signal x) accepted)]

/-- What the media stack refuses is no part of it. -/
theorem Transit.of_refusals {c : Call} {r : Refusals} {i : Input} {es : List Effect}
    (h : Transit { c with board := { c.board with refusals := r } } i es) : Transit c i es := by
  cases h with
  | off hreported haddressed hmislaid hes => exact .off hreported haddressed hmislaid hes
  | post hi hu => exact .post hi hu
  | deliver hi hactive hl => exact .deliver hi hactive hl
  | drop hi haddressed hmislaid => exact .drop hi haddressed hmislaid
  | answer hi hs => exact .answer hi hs

variable (c : Call)

/-- A message that is no envelope is dropped only if it does not count. -/
theorem transit_onMessage {message : Incoming} (hno : ∀ u s, message ≠ .signal u s) :
    Transit c (.relay (.message message)) (c.onMessage message).effects := by
  have haddressed (u : UserId) (n : Nat) : c.addressed u n (.relay (.message message)) = [] := by
    cases message with
    | signal u s => exact absurd rfl (hno u s)
    | _ => rfl
  have hmislaid : c.mislaid (.relay (.message message)) =
      if c.membership.admits message = true then [] else [.notJoined] := by
    cases message with
    | signal u s => exact absurd rfl (hno u s)
    | _ => rfl
  unfold onMessage
  by_cases hadmits : c.membership.admits message = true
  · rw [if_pos hadmits] at hmislaid ⊢
    exact .off (fun _ => rfl) haddressed hmislaid (c.offTraffic_onAdmitted hno)
  · rw [if_neg hadmits] at hmislaid ⊢
    exact .drop rfl haddressed hmislaid

/-- An envelope is passed on or dropped. -/
theorem transit_onMessage_signal (u : UserId) (s : Signal) :
    Transit c (.relay (.message (.signal u s))) (c.onMessage (.signal u s)).effects := by
  unfold onMessage Membership.admits
  by_cases hactive : c.membership.active = true
  · rw [if_pos hactive, onAdmitted]
    cases hl : c.mesh.lines.get? u with
    | none =>
      rw [Mesh.signal_of_none _ s hl]
      refine .drop rfl (fun v n => ?_) ?_
      · refine if_neg ?_
        rintro ⟨rfl, -, hn⟩
        rw [hl] at hn
        cases hn
      · simp [mislaid, hactive, Mesh.contains, Table.contains, hl]
    | some l =>
      rw [Mesh.signal_of_get? _ s hl]
      exact .deliver rfl hactive hl
  · rw [if_neg hactive]
    exact .drop rfl (fun v n => if_neg fun h => hactive h.2.1)
      (if_pos (Bool.eq_false_iff.2 hactive))

/-- An envelope of a connection goes out, if there is one. -/
theorem transit_onReport_signal (hopen : c.outboundOpen = true) (n : Nat) (u : UserId)
    (s : Signal) : Transit c (.report n (.participant u) (.signal s))
      (c.onReport (.participant u) (.signal s)).effects := by
  cases hl : c.mesh.lines.get? u with
  | none =>
    rw [c.onReport_of_get?_eq_none hl]
    refine .off (fun v => if_neg ?_) (fun _ _ => rfl) rfl (List.forall_mem_nil _)
    rintro ⟨rfl, hcontains⟩
    obtain ⟨l, hl'⟩ := Mesh.contains_eq_true_iff.1 hcontains
    cases hl.symm.trans hl'
  | some l =>
    rw [c.onReport_of_get? hl, onPeerReport, send, hopen]
    exact .post rfl (Mesh.contains_eq_true_iff.2 ⟨l, hl⟩)

/-- A reply that is for the session there is goes to its connection. -/
theorem transit_onReply (session : Nat) (result : Except Recorder.JoinError Signal) :
    Transit c (.reply session result) (c.onReply session result).effects := by
  unfold onReply Recorder.reply
  cases hs : c.recorder.session with
  | none => exact .off (fun _ => rfl) (fun _ _ => rfl) rfl (List.forall_mem_nil _)
  | some s =>
    dsimp only
    split
    · cases result with
      | error e =>
        exact .off (fun _ => rfl) (fun _ _ => rfl) rfl (List.forall_mem_singleton.2 trivial)
      | ok x => exact .answer rfl hs
    · exact .off (fun _ => rfl) (fun _ _ => rfl) rfl (List.forall_mem_nil _)

/-- Every input leaves the traffic alone, or one envelope or message goes its way. -/
theorem transit_react (hopen : c.outboundOpen = true) (now : Nat) (i : Input) :
    Transit c i (c.react now i).effects := by
  have hoff (hi : i.bearsOnTraffic = false) (hreported : ∀ u, c.reported u i = [])
      (haddressed : ∀ u n, c.addressed u n i = []) (hmislaid : c.mislaid i = []) :
      Transit c i (c.react now i).effects :=
    .off hreported haddressed hmislaid (c.offTraffic_react now hi)
  cases i with
  | relay e =>
    cases e with
    | message message =>
      by_cases hsignal : ∃ u s, message = .signal u s
      · obtain ⟨u, s, rfl⟩ := hsignal
        exact c.transit_onMessage_signal u s
      · exact c.transit_onMessage fun u s h => hsignal ⟨u, s, h⟩
    | _ => exact hoff rfl (fun _ => rfl) (fun _ _ => rfl) rfl
  | report n key r =>
    cases key with
    | recording => exact hoff rfl (fun _ => rfl) (fun _ _ => rfl) rfl
    | participant u =>
      cases r with
      | signal s => exact c.transit_onReport_signal hopen n u s
      | _ => exact hoff rfl (fun _ => rfl) (fun _ _ => rfl) rfl
  | reply session result => exact c.transit_onReply session result
  | _ => exact hoff rfl (fun _ => rfl) (fun _ _ => rfl) rfl

theorem transit_meet (hopen : c.outboundOpen = true) (m : Moment) :
    Transit c m.input (c.meet m).effects :=
  .of_refusals (transit_react { c with board := { c.board with refusals := m.refusals } } hopen
    m.now m.input)

/-! ### The views -/

namespace Transit

variable {c : Call} {i : Input} {es : List Effect} (h : Transit c i es)
include h

/-- What is sent is what connections have to send. -/
theorem posted (u : UserId) : Effect.posted u es =
    (c.reported u i).map fun s => ⟨c.membership.room, .signal u s⟩ := by
  cases h with
  | off hreported _ _ hes => rw [Effect.posted_eq_nil hes, hreported u, List.map_nil]
  | @post n v s hi hv =>
    subst hi
    by_cases huv : v = u
    · subst huv
      simp [Effect.posted, Effect.messages, reported, hv]
    · simp [Effect.posted, Effect.messages, reported, huv]
  | deliver hi =>
    subst hi
    rfl
  | drop hi =>
    subst hi
    rfl
  | answer hi =>
    subst hi
    rfl

/-- What is dropped is dropped once. -/
theorem dropped : Effect.dropped es = c.mislaid i := by
  cases h with
  | off _ _ hmislaid hes => rw [Effect.dropped_eq_nil hes, hmislaid]
  | post hi =>
    subst hi
    rfl
  | deliver hi hactive hl =>
    subst hi
    simp [Effect.dropped, Effect.counts, mislaid, hactive, Mesh.contains, Table.contains, hl]
  | drop _ _ hmislaid => exact hmislaid.symm
  | answer hi =>
    subst hi
    rfl

/-- What is passed on to a connection comes from the participant to whom it leads. -/
theorem delivered {before : List Effect} (hwired : Wired c before) {os : List (Nat × Key)}
    (hos : ∀ n key key', (n, key) ∈ os → (n, key') ∈ os → key = key')
    (hbefore : ∀ o ∈ Effect.opened before, o ∈ os) {n : Nat} {u : UserId}
    (hn : (n, .participant u) ∈ os) : Effect.delivered n es = c.addressed u n i := by
  cases h with
  | off _ haddressed _ hes => rw [Effect.delivered_eq_nil hes, haddressed]
  | post hi =>
    subst hi
    rfl
  | @deliver v s l accepted hi hactive hl =>
    subst hi
    have hline : (l.number, .participant v) ∈ os :=
      hbefore _ (hwired.line_opened v l.number (by simp [wiring, hl]))
    by_cases hln : l.number = n
    · obtain rfl : v = u := Key.participant.inj (hos n _ _ (hln ▸ hline) hn)
      simp [Effect.delivered, Effect.signals, Effect.lines, addressed, hactive, hl, hln]
    · have hother : ¬ (v = u ∧ c.membership.active = true ∧
          (c.mesh.lines.get? u).map Line.number = some n) := by
        rintro ⟨rfl, -, hnumber⟩
        rw [hl] at hnumber
        exact hln (Option.some.inj hnumber)
      rw [addressed, if_neg hother]
      simp [Effect.delivered, Effect.signals, Effect.lines, hln]
  | drop hi haddressed =>
    rw [haddressed]
    rfl
  | @answer session result s x accepted hi hs =>
    subst hi
    have hother : s.line ≠ n := by
      rintro rfl
      have hline := hbefore _ (hwired.session_opened s.line (by simp [wiring, hs]))
      cases hos _ _ _ hline hn
    simp [Effect.delivered, Effect.signals, Effect.lines, addressed, hother]

end Transit

/-! ### Histories -/

/-- The messages of two calls go out in the same way, for the same room. -/
structure Aligned (c c' : Call) : Prop where
  outboundOpen : c'.outboundOpen = c.outboundOpen
  room : c'.membership.room = c.membership.room

theorem Aligned.trans {c c' c'' : Call} (h : Aligned c c') (h' : Aligned c' c'') : Aligned c c'' :=
  ⟨h'.outboundOpen.trans h.outboundOpen, h'.room.trans h.room⟩

variable (c : Call)

theorem aligned_applyRecording (recording : Bool) (url : Option String) :
    Aligned c (c.applyRecording recording url).value := by
  unfold applyRecording
  split <;> exact ⟨rfl, rfl⟩

theorem aligned_settleCounted (outcome : DialOutcome) (a : Answer) :
    Aligned c (c.settleCounted outcome a).value := by
  rw [value_settleCounted]
  exact ⟨rfl, rfl⟩

theorem aligned_onRoster (r : Roster) : Aligned c (c.onRoster r).value := by
  obtain ⟨c', hvalue, hc'⟩ := c.exists_value_onRoster r
  have haligned := c'.aligned_applyRecording r.recording (nonempty r.recordUrl)
  obtain ⟨_, _, rfl⟩ := hc'
  rw [hvalue]
  exact ⟨haligned.outboundOpen, haligned.room⟩

theorem aligned_onMessage (message : Incoming) : Aligned c (c.onMessage message).value := by
  unfold onMessage
  split
  · cases message with
    | roster r => exact c.aligned_onRoster r
    | recordOutcome r =>
      rw [onAdmitted]
      split
      · exact c.aligned_applyRecording _ _
      · exact ⟨rfl, rfl⟩
    | _ => exact ⟨rfl, rfl⟩
  · exact ⟨rfl, rfl⟩

theorem aligned_onReport (key : Key) (r : Report) : Aligned c (c.onReport key r).value := by
  cases key with
  | recording => exact ⟨rfl, rfl⟩
  | participant user =>
    cases hl : c.mesh.lines.get? user with
    | none =>
      rw [c.onReport_of_get?_eq_none hl]
      exact ⟨rfl, rfl⟩
    | some l =>
      rw [c.onReport_of_get? hl]
      cases r with
      | muted id =>
        rw [onPeerReport, onMuted]
        split <;> exact ⟨rfl, rfl⟩
      | _ => exact ⟨rfl, rfl⟩

theorem aligned_onIntent (now ticket : Nat) (i : Intent) :
    Aligned c (c.onIntent now ticket i).value := by
  cases i with
  | dial nickname => exact (c.aligned_settleCounted _ _).trans ⟨rfl, rfl⟩
  | hangUp =>
    let c' : Call := { c with membership := c.membership.stop }
    have hsettled : Aligned c (c'.settleDial (.failed .dialSuperseded)).value := by
      rw [value_settleDial]
      exact ⟨rfl, rfl⟩
    exact hsettled.trans ⟨rfl, rfl⟩
  | _ => exact ⟨rfl, rfl⟩

/-- No input changes how messages go out. -/
theorem aligned_react (now : Nat) (i : Input) : Aligned c (c.react now i).value := by
  cases i with
  | relay e =>
    cases e with
    | connected => exact ⟨rfl, rfl⟩
    | disconnected =>
      rw [react, onRelay]
      split <;> exact ⟨rfl, rfl⟩
    | message message => exact c.aligned_onMessage message
  | report n key r => exact c.aligned_onReport key r
  | reply session result => exact ⟨rfl, rfl⟩
  | intent ticket i => exact c.aligned_onIntent now ticket i
  | deadline =>
    rw [react, onDeadline]
    split
    · exact ⟨rfl, rfl⟩
    · refine Aligned.trans ?_ (aligned_settleCounted _ _ _)
      exact ⟨rfl, rfl⟩

theorem aligned_meet (m : Moment) : Aligned c (c.meet m).value := by
  refine Aligned.trans ?_ (aligned_react _ m.now m.input)
  exact ⟨rfl, rfl⟩

theorem aligned_run (moments : List Moment) : Aligned c (c.run moments).value :=
  forEach_induction (p := Aligned c) ⟨rfl, rfl⟩ fun d hd m _ => hd.trans (d.aligned_meet m)

section Run

variable (s : Settings) (room : RoomId) (user : UserId) (urls : UrlSource)

/-- What a moment of a history does to the traffic. -/
theorem transit_run (moments : List Moment) (m : Moment) :
    let c := ((fresh s room user urls .none).run moments).value
    c.membership.room = room ∧ Transit c m.input (c.meet m).effects := by
  intro c
  have haligned := aligned_run (fresh s room user urls .none) moments
  exact ⟨haligned.room, c.transit_meet haligned.outboundOpen m⟩

theorem posted_run (u : UserId) (moments : List Moment) :
    let c := fresh s room user urls .none
    Effect.posted u (c.run moments).effects =
      (c.gather (reported u) moments).map fun s => ⟨room, .signal u s⟩ := by
  intro c
  induction moments using List.reverseRecOn with
  | nil => rfl
  | append_singleton moments m ih =>
    obtain ⟨hroom, htransit⟩ := transit_run s room user urls moments m
    rw [effects_run_concat, Effect.posted_append, ih, htransit.posted u, hroom, gather_concat,
      List.map_append]

theorem dropped_run (moments : List Moment) :
    let c := fresh s room user urls .none
    Effect.dropped (c.run moments).effects = c.gather mislaid moments := by
  intro c
  induction moments using List.reverseRecOn with
  | nil => rfl
  | append_singleton moments m ih =>
    obtain ⟨-, htransit⟩ := transit_run s room user urls moments m
    rw [effects_run_concat, Effect.dropped_append, ih, htransit.dropped, gather_concat]

/-- Where connections lead, those that are opened later included, is all that matters to what is
passed on to one of them. -/
theorem delivered_run {os : List (Nat × Key)}
    (hos : ∀ n key key', (n, key) ∈ os → (n, key') ∈ os → key = key') {n : Nat} {u : UserId}
    (hn : (n, .participant u) ∈ os) (moments : List Moment) :
    let c := fresh s room user urls .none
    (∀ o ∈ Effect.opened (c.run moments).effects, o ∈ os) →
      Effect.delivered n (c.run moments).effects = c.gather (addressed u n) moments := by
  intro c
  induction moments using List.reverseRecOn with
  | nil => exact fun _ => rfl
  | append_singleton moments m ih =>
    intro hopened
    rw [effects_run_concat] at hopened ⊢
    have hbefore : ∀ o ∈ Effect.opened (c.run moments).effects, o ∈ os := fun o ho =>
      hopened o (by rw [Effect.opened_append]; exact List.mem_append_left _ ho)
    obtain ⟨-, htransit⟩ := transit_run s room user urls moments m
    have hwired := wired_run s room user urls moments
    rw [Effect.delivered_append, ih hbefore, htransit.delivered hwired hos hbefore hn,
      gather_concat]

/-- In every history, what goes out to the relay for a participant are the envelopes that the
connections to them had, in order and for the room of the call. What is passed on to a connection
are the envelopes that came in from its participant while it was the one to them and the call had
joined, whether it took them or not. All other envelopes that came in were dropped, each counted
once: as it came too early if the call had not joined, and as from a stranger otherwise. -/
theorem traffic_run (moments : List Moment) :
    let c := fresh s room user urls .none
    let es := (c.run moments).effects
    (∀ u, Effect.posted u es =
      (c.gather (reported u) moments).map fun s => ⟨room, .signal u s⟩) ∧
    (∀ u n, (n, .participant u) ∈ Effect.opened es →
      Effect.delivered n es = c.gather (addressed u n) moments) ∧
    Effect.dropped es = c.gather mislaid moments ∧
    (∀ reason, (Footprint.none.noteAll es).readings.total (.signalsDropped reason) =
      (c.gather mislaid moments).count reason) ∧
    ∀ e ∈ (c.run moments).value.shutDown.effects, e.OffTraffic := by
  intro c es
  have hdropped : Effect.dropped es = c.gather mislaid moments := dropped_run s room user urls _
  refine ⟨fun u => posted_run s room user urls u moments, fun u n hn => ?_, hdropped,
    fun reason => ?_, offTraffic_shutDown _⟩
  · have hwired := wired_run s room user urls moments
    exact delivered_run s room user urls hwired.unique hn moments fun _ ho => ho
  · rw [Footprint.total_noteAll, ← Effect.count_dropped, hdropped]
    exact Nat.zero_add _

end Run

/-- An envelope comes before the call has joined, one before there is a connection to its sender,
and one when there is. -/
example :
    let envelope (text : String) : Input := .relay (.message (.signal ⟨"ann"⟩ ⟨.string text⟩))
    let es := ((fresh (.ofRelay "ws://relay") ⟨"room"⟩ ⟨"me"⟩ (.fresh fun _ _ => false) .none).run
      [⟨0, .none, envelope "early"⟩,
        ⟨1, .none, .intent 0 (.dial "me")⟩,
        ⟨2, .none, envelope "stray"⟩,
        ⟨3, .none, .relay (.message (.roster ⟨⟨"ann"⟩, [⟨"ann"⟩, ⟨"me"⟩], ∅, false, ""⟩))⟩,
        ⟨4, .none, envelope "offer"⟩]).effects
    Effect.dropped es = [.notJoined, .unknownPeer] ∧
      Effect.delivered 0 es = [⟨.string "offer"⟩] := by
  exact ⟨by decide, rfl⟩

end VideoCall.Call
