import Mathlib.Data.List.Induction
import VideoCall.Proofs.Call.Recording
import VideoCall.Proofs.Call.Supply
import VideoCall.Proofs.Recorder.Legs

/-!
# Legs follow captured streams

While there is a recording, captured streams are its legs. Legs are seeded when a session begins,
and from then on the recorder hears of every captured stream that comes or goes. So every leg is a
captured stream at any time, and every captured stream is a leg if the connection took all of them
and no two of them had one id.

## Main definitions

* `Call.Follows` : the recorder follows a change of the captured streams.
* `Call.Smooth` : during a session, the connection refused no stream, and the ids of captured
  streams were different.
* `Call.Alone` : connections to the recording service are opened one at a time.
* `Call.LegsFirst` : a leg goes before any track of its stream is told to stop.

## Main results

* `Call.tracks_meet`, `Call.covers_meet` : what one moment keeps of legs and captured streams.
* `Call.legs_run` : in every history, legs follow captured streams.
-/

namespace VideoCall.Call

open Outcome Peer Wire Media

/-- An input lets captured streams come or go. -/
def Input.captures : Input → Bool
  | .intent _ (.addLocal _ _) => true
  | .intent _ (.removeLocal _) => true
  | .intent _ .hangUp => true
  | _ => false

/-! ### Other inputs -/

section Course

variable (c : Call)

theorem captured_perm_meet {c : Call} (h : c.gallery.InOrder) {m : Moment}
    (hm : m.input.captures = false) : (c.meet m).value.captured.Perm c.captured := by
  cases hi : m.input.bearsOnMesh with
  | false =>
    refine captured_meet h hi fun ticket he => ?_
    rw [he] at hm
    cases hm
  | true =>
    unfold Input.bearsOnMesh at hi
    split at hi
    · rename_i r hroster
      have hnone : c.change? m.input = none := by
        rw [hroster]
        exact ite_self _
      change (c.meet m).value.gallery.captured.Perm c.gallery.captured
      rw [gallery_meet, hnone]
      exact .refl _
    · rename_i hadd
      rw [hadd] at hm
      cases hm
    · rename_i hremove
      rw [hremove] at hm
      cases hm
    · cases hi

theorem course_applyRecording (recording : Bool) (url : Option String) :
    Recorder.Course c.captured c.recorder (c.applyRecording recording url).value.recorder := by
  unfold applyRecording
  split
  · exact c.recorder.course_start _ _ _ _ _
  · exact c.recorder.course_stop _

/-- What becomes of the recorder of a call at an input that lets no captured stream come or go: it
stays, is brought into the state that the relay names, or takes a report. -/
inductive Handled (c : Call) : Recorder → Prop
  | rest : Handled c c.recorder
  | ruled {c' : Call} (hrecorder : c'.recorder = c.recorder) (hgallery : c'.gallery = c.gallery)
      (recording : Bool) (url : Option String) :
      Handled c (c'.applyRecording recording url).value.recorder
  | reported (r : Report) : Handled c (c.recorder.report r).value

theorem Handled.of_eq {c : Call} {r : Recorder} (h : r = c.recorder) : Handled c r := h ▸ .rest

theorem handled_onRoster (r : Roster) : Handled c (c.onRoster r).value.recorder := by
  obtain ⟨c', hvalue, _, _, hc'⟩ := c.exists_value_onRoster r
  have hrecorder : c'.recorder = c.recorder := by rw [hc']
  have hgallery : c'.gallery = c.gallery := by rw [hc']
  rw [hvalue]
  exact .ruled hrecorder hgallery _ _

theorem handled_react (now : Nat) {i : Input} (hi : i.captures = false) :
    Handled c (c.react now i).value.recorder := by
  cases i with
  | relay e =>
    cases e with
    | connected => exact .rest
    | disconnected =>
      refine .of_eq ?_
      unfold react onRelay
      dsimp only
      split <;> rfl
    | message m =>
      rw [react, onRelay, onMessage]
      split
      · cases m with
        | roster r => exact c.handled_onRoster r
        | recordOutcome r =>
          rw [onAdmitted]
          split
          · exact .ruled rfl rfl _ _
          · exact .rest
        | _ => exact .rest
      · exact .rest
  | report n key r =>
    cases key with
    | recording => exact .reported r
    | participant user =>
      refine .of_eq ?_
      unfold react onReport
      dsimp only
      split
      · rfl
      · cases r with
        | muted id =>
          unfold onPeerReport onMuted
          dsimp only
          split <;> rfl
        | _ => rfl
  | reply session result => exact .rest
  | intent ticket i =>
    cases i with
    | dial nickname =>
      refine .of_eq ?_
      unfold react onIntent dial
      dsimp only [value_bind]
      rw [value_settleCounted]
      rfl
    | hangUp => cases hi
    | addLocal type stream => cases hi
    | removeLocal type => cases hi
    | _ => exact .rest
  | deadline =>
    refine .of_eq ?_
    unfold react onDeadline
    dsimp only
    split
    · rfl
    · dsimp only [value_bind]
      rw [value_settleCounted]

theorem Handled.course {c : Call} {r : Recorder} (h : Handled c r) :
    Recorder.Course c.captured c.recorder r := by
  cases h with
  | rest => exact .refl _ _
  | @ruled c' hrecorder hgallery recording url =>
    have hcourse := c'.course_applyRecording recording url
    rwa [captured, hrecorder, hgallery] at hcourse
  | reported r => exact c.recorder.course_report _ r

end Course

/-! ### Captured streams that come and go -/

/-- The recorder follows a change of the captured streams, and no track is told to stop before. -/
structure Follows {α : Type} (c : Call) (refusals : Refusals) (change : Outcome (Gallery × α))
    (o : Outcome Call) : Prop where
  recorder : o.value.recorder =
    (c.recorder.follow { c.board with refusals := refusals } change).value.1
  gallery : o.value.gallery = change.value.1
  effects : ∃ before after, Effect.stops before = [] ∧ o.effects =
    before ++ ((c.recorder.follow { c.board with refusals := refusals } change).effects ++ after)

section Meet

variable {c : Call} {m : Moment} {ticket : Nat} {type : StreamType}

theorem follows_addLocal {stream : Stream} (hi : m.input = .intent ticket (.addLocal type stream)) :
    Follows c m.refusals (c.gallery.addLocal c.recorder.active type stream) (c.meet m) := by
  unfold meet react
  rw [hi]
  have hbefore : Emits (Effect.Within [.command])
      (forSome (c.gallery.locals.get? type) fun before =>
        c.mesh.tellAll { c.board with refusals := m.refusals } (.removeStream before.stream)) :=
    .forSome (fun _ => Mesh.within_tellAll _ _ _) _
  exact ⟨rfl, rfl, _, _, Effect.stops_eq_nil hbefore (by decide),
    (List.append_assoc _ _ _).trans (congrArg _ (List.append_assoc _ _ _))⟩

theorem follows_removeLocal (hi : m.input = .intent ticket (.removeLocal type)) :
    Follows c m.refusals (c.gallery.removeLocal c.recorder.active type) (c.meet m) := by
  unfold meet react
  rw [hi]
  exact ⟨rfl, rfl, [], _, rfl, List.append_assoc _ _ _⟩

/-- What comes to the recorder at a moment that lets no captured stream come or go. -/
theorem course_meet (hm : m.input.captures = false) :
    Recorder.Course c.captured c.recorder (c.meet m).value.recorder :=
  (handled_react { c with board := { c.board with refusals := m.refusals } } m.now hm).course

/-- The inputs that let captured streams come or go. -/
theorem Input.captures_cases {i : Input} (hi : i.captures = true) :
    (∃ ticket type stream, i = .intent ticket (.addLocal type stream)) ∨
      (∃ ticket type, i = .intent ticket (.removeLocal type)) ∨
      ∃ ticket, i = .intent ticket .hangUp := by
  unfold Input.captures at hi
  split at hi
  · exact Or.inl ⟨_, _, _, rfl⟩
  · exact Or.inr (Or.inl ⟨_, _, rfl⟩)
  · exact Or.inr (Or.inr ⟨_, rfl⟩)
  · cases hi

end Meet

/-! ### Every leg is a captured stream -/

/-- Every moment keeps legs captured streams. -/
theorem tracks_meet {c : Call} (h : c.gallery.InOrder) (hc : c.recorder.Tracks c.captured)
    (m : Moment) : (c.meet m).value.recorder.Tracks (c.meet m).value.captured := by
  change (c.meet m).value.recorder.Tracks (c.meet m).value.gallery.captured
  cases hm : m.input.captures with
  | false => exact (hc.course (course_meet hm)).of_perm rfl (captured_perm_meet h hm)
  | true =>
    rcases Input.captures_cases hm with ⟨ticket, type, stream, hi⟩ | ⟨ticket, type, hi⟩ |
      ⟨ticket, hi⟩
    · have hfollows := follows_addLocal (c := c) hi
      rw [hfollows.recorder, hfollows.gallery]
      exact Recorder.Tracks.addLocal hc stream
    · have hfollows := follows_removeLocal (c := c) hi
      rw [hfollows.recorder, hfollows.gallery]
      exact Recorder.Tracks.removeLocal hc
    · intro id hid
      rw [(c.bare_meet_hangUp hi).legs] at hid
      exact absurd hid List.not_mem_nil

/-! ### Every captured stream is a leg -/

/-- During a session, the connection refused no stream that it was told of, and the captured streams
had different ids. -/
structure Smooth (c : Call) (moments : List Moment) (s : Recorder.Session) : Prop where
  taken : ∀ stream, .line (.told s.line (.addStream stream) false) ∉ (c.run moments).effects
  distinct : ∀ before, before <+: moments → ∀ s',
    (c.run before).value.recorder.session = some s' → s'.number = s.number →
      ((c.run before).value.captured.map (·.id)).Nodup

section Covers

variable {c : Call} {moments : List Moment} {m : Moment} {s s' : Recorder.Session}

/-- A session that goes smoothly did so before. -/
theorem Smooth.before (h : c.Smooth (moments ++ [m]) s') (hn : s'.numbers = s.numbers) :
    c.Smooth moments s := by
  obtain ⟨hnumber, hline⟩ := Prod.mk.inj hn
  constructor
  · intro stream hmem
    refine h.taken stream ?_
    rw [effects_run_concat, hline]
    exact List.mem_append_left _ hmem
  · intro before hbefore s'' hs'' he
    exact h.distinct before (hbefore.trans (List.prefix_append _ _)) s'' hs''
      (he.trans hnumber.symm)

/-- A moment after which there is a smooth session keeps captured streams legs. -/
theorem covers_meet (hin : (c.run moments).value.gallery.InOrder)
    (ih : ∀ s, (c.run moments).value.recorder.session = some s → c.Smooth moments s →
      (c.run moments).value.recorder.Covers (c.run moments).value.captured)
    (hs' : ((c.run moments).value.meet m).value.recorder.session = some s')
    (hsmooth : c.Smooth (moments ++ [m]) s') :
    ((c.run moments).value.meet m).value.recorder.Covers
      ((c.run moments).value.meet m).value.captured := by
  have htaken := hsmooth.taken
  have hdistinct := hsmooth.distinct moments (List.prefix_append _ _)
  have hbefore : ∀ s, (c.run moments).value.recorder.session = some s → s'.numbers = s.numbers →
      (c.run moments).value.recorder.Covers (c.run moments).value.captured :=
    fun s hs hn => ih s hs (hsmooth.before hn)
  simp only [effects_run_concat, List.mem_append, not_or] at htaken
  generalize (c.run moments).value = d at *
  change (d.meet m).value.recorder.Covers (d.meet m).value.gallery.captured
  cases hm : m.input.captures with
  | false =>
    have hperm := captured_perm_meet hin hm
    cases course_meet hm with
    | ended hnone => cases hnone.symm.trans hs'
    | kept hnumbers hlegs =>
      rw [hs', Option.map_some] at hnumbers
      obtain ⟨s, hs, hn⟩ := Option.map_eq_some_iff.1 hnumbers.symm
      exact (hbefore s hs hn.symm).of_perm hlegs hperm
    | begun _ _ hcovers => exact hcovers.of_perm rfl hperm
  | true =>
    rcases Input.captures_cases hm with ⟨ticket, type, stream, hi⟩ | ⟨ticket, type, hi⟩ |
      ⟨ticket, hi⟩
    · have hfollows := follows_addLocal (c := d) hi
      obtain ⟨before, after, -, heffects⟩ := hfollows.effects
      rw [hfollows.recorder] at hs' ⊢
      rw [hfollows.gallery]
      obtain ⟨s, hs, hn⟩ := Recorder.exists_session_of_follow hs'
      obtain ⟨hnumber, hline⟩ := Prod.mk.inj hn
      refine (hbefore s hs hn).addLocal (hdistinct s hs hnumber.symm) hs fun htold => ?_
      refine (htaken stream).2 ?_
      rw [heffects, hline]
      exact List.mem_append_right _ (List.mem_append_left _ htold)
    · have hfollows := follows_removeLocal (c := d) hi
      rw [hfollows.recorder] at hs' ⊢
      rw [hfollows.gallery]
      obtain ⟨s, hs, hn⟩ := Recorder.exists_session_of_follow hs'
      exact (hbefore s hs hn).removeLocal (hdistinct s hs (Prod.mk.inj hn).1.symm)
    · cases (d.bare_meet_hangUp hi).session.symm.trans hs'

end Covers

/-! ### Legs go first -/

section Ahead

variable {c : Call} {s : Recorder.Session}

/-- What the recorder does first that follows comes before any track is told to stop. -/
theorem Follows.ahead {α : Type} {refusals : Refusals} {change : Outcome (Gallery × α)}
    {o : Outcome Call} (h : Follows c refusals change o) {e : Effect}
    (he : e.Ahead (c.recorder.follow { c.board with refusals := refusals } change).effects) :
    e.Ahead o.effects := by
  obtain ⟨before, after, hbefore, heffects⟩ := h.effects
  rw [heffects]
  exact (he.append_right after).append_left hbefore

/-- When everything is released, the session ends before any track is told to stop. -/
theorem ahead_release (hs : c.recorder.session = some s) (loud : Bool) :
    Effect.Ahead (.line (.destroyed s.line)) (c.release loud).effects := by
  have heffects : (c.release loud).effects = (c.mesh.closeAll .hangUp).effects ++
      ((stopRecording { c with mesh := (c.mesh.closeAll .hangUp).value.1 } loud).effects ++
        (c.gallery.reset.effects ++ [])) := rfl
  have hstop : Effect.Ahead (.line (.destroyed s.line))
      (stopRecording { c with mesh := (c.mesh.closeAll .hangUp).value.1 } loud).effects := by
    unfold stopRecording Recorder.stop
    simp only [hs]
    exact .head _ _
  rw [heffects]
  exact (hstop.append_right _).append_left
    (Effect.stops_eq_nil (c.mesh.within_closeAll .hangUp) (by decide))

theorem session_settleDial (hs : c.recorder.session = some s) (a : Answer) :
    (c.settleDial a).value.recorder.session = some s := by
  rw [value_settleDial]
  exact hs

theorem ahead_shutDown (hs : c.recorder.session = some s) :
    Effect.Ahead (.line (.destroyed s.line)) c.shutDown.effects :=
  (ahead_release (session_settleDial hs _) false).append_left
    (Effect.stops_eq_nil (c.within_settleDial _) (by decide))

theorem ahead_hangUp (hs : c.recorder.session = some s) :
    Effect.Ahead (.line (.destroyed s.line)) c.hangUp.effects := by
  let c' : Call := { c with membership := c.membership.stop }
  have hrelease := ahead_release (session_settleDial (c := c') hs (.failed .dialSuperseded)) true
  exact ((hrelease.append_right _).append_left
    (Effect.stops_eq_nil (c'.within_settleDial _) (by decide))).append_left
      (Effect.stops_eq_nil (c.within_send _) (by decide))

theorem ahead_meet_hangUp {m : Moment} {ticket : Nat} (hi : m.input = .intent ticket .hangUp)
    (hs : c.recorder.session = some s) :
    Effect.Ahead (.line (.destroyed s.line)) (c.meet m).effects := by
  unfold meet react
  rw [hi]
  exact (ahead_hangUp (c := { c with board := { c.board with refusals := m.refusals } })
    hs).append_right _

end Ahead

/-! ### One connection at a time -/

/-- When a connection to the recording service is opened, all earlier ones are destroyed. -/
def Alone (es : List Effect) : Prop :=
  ∀ before n options, before ++ [.line (.opened n .recording options)] <+: es →
    ∀ k, (k, .recording) ∈ Effect.opened before → k ∈ Effect.destroyed before

section Alone

variable {c : Call} {o : Outcome Call} {es fs : List Effect}

theorem Alone.concat (h : Alone es) {e : Effect}
    (he : ∀ n options, e = .line (.opened n .recording options) →
      ∀ k, (k, .recording) ∈ Effect.opened es → k ∈ Effect.destroyed es) : Alone (es ++ [e]) := by
  intro before n options hbefore
  rcases List.prefix_concat_iff.1 hbefore with heq | hprefix
  · obtain ⟨rfl, hlast⟩ := List.append_inj' heq rfl
    exact he n options (List.singleton_inj.1 hlast).symm
  · exact h before n options hprefix

/-- Where no connection to the recording service is opened, there is nothing to see to. -/
theorem Alone.append (h : Alone es) (hfs : Effect.recordingLines fs = []) : Alone (es ++ fs) := by
  induction fs generalizing es with
  | nil => rwa [List.append_nil]
  | cons e fs ih =>
    rw [← List.singleton_append, Effect.recordingLines_append, List.append_eq_nil_iff] at hfs
    rw [← List.singleton_append, ← List.append_assoc]
    refine ih (h.concat fun n options he => ?_) hfs.2
    rw [he] at hfs
    cases hfs.1

/-- A move opens no connection to the recording service, unless it begins a session when there is
none. -/
theorem Move.recordingLines_cases (h : Move c o) :
    Effect.recordingLines o.effects = [] ∨ c.recorder.session = none ∧
      ∃ n options fs, o.effects = .line (.opened n .recording options) :: fs ∧
        Effect.recordingLines fs = [] := by
  have hquiet : ∀ {fs : List Effect}, Effect.opened fs = [] → Effect.recordingLines fs = [] := by
    intro fs hfs
    rw [Effect.recordingLines, hfs]
    rfl
  cases h with
  | pass _ hfs => exact Or.inl (hquiet (Effect.dealings_of_asides hfs).1)
  | connect _ _ _ => exact Or.inl rfl
  | phase _ _ hfs => exact Or.inl (hquiet (Effect.dealings_of_asides hfs).1)
  | tearDown _ hfs _ =>
    exact Or.inl (hquiet ((Effect.opened_publish _ _).trans (Effect.dealings_of_gallery hfs).1))
  | change _ _ _ hfs _ =>
    exact Or.inl (hquiet ((Effect.opened_publish _ _).trans (Effect.dealings_of_gallery hfs).1))
  | record hnone _ _ _ _ hfs =>
    exact Or.inr ⟨hnone, _, _, _, rfl,
      hquiet ((Effect.opened_publish _ _).trans (Effect.dealings_of_asides hfs).1)⟩
  | stop _ _ _ hfs =>
    exact Or.inl (hquiet ((Effect.opened_publish _ _).trans (Effect.dealings_of_asides hfs).1))
  | release _ _ _ _ _ _ ho _ _ _ =>
    exact Or.inl (hquiet ((Effect.opened_publish _ _).trans ho))

/-- While there is no session, all connections to the recording service are destroyed. -/
theorem mem_destroyed_of_none (hw : Wired c es) (ha : Accounted c es)
    (hs : c.recorder.session = none) {k : Nat} (hk : (k, .recording) ∈ Effect.opened es) :
    k ∈ Effect.destroyed es := by
  refine (ha.mem_or_mem hk).resolve_right fun hheld => ?_
  rcases mem_held_iff.1 hheld with ⟨u, l, hl, rfl⟩ | ⟨s, hs', -⟩
  · cases hw.unique _ _ _ hk (hw.line_opened u l.number (by simp [wiring, hl]))
  · cases hs.symm.trans hs'

theorem leads_alone (h : Move c o) :
    Leads (fun es => Wired c es ∧ Accounted c es ∧ Alone es) o
      fun c es => Wired c es ∧ Accounted c es ∧ Alone es := by
  intro es ⟨hw, ha, halone⟩
  refine ⟨leads_move h es hw, leads_accounted h es ha, ?_⟩
  rcases h.recordingLines_cases with hquiet | ⟨hnone, n, options, fs, heffects, hfs⟩
  · exact halone.append hquiet
  · rw [heffects, ← List.singleton_append, ← List.append_assoc]
    exact (halone.concat fun _ _ _ k hk => mem_destroyed_of_none hw ha hnone hk).append hfs

theorem alone_run (s : Settings) (room : RoomId) (user : UserId) (urls : UrlSource)
    (moments : List Moment) : Alone ((fresh s room user urls .none).run moments).effects :=
  ((moves_run _ moments).leads
    (P := fun c es => Wired c es ∧ Accounted c es ∧ Alone es) (fun _ _ => leads_alone) []
      ⟨wired_fresh s room user urls, ⟨rfl, .nil⟩, fun before n options h => by
        simp at h⟩).2.2

end Alone

/-! ### Histories -/

/-- Whatever comes next, a leg goes before any track of its stream is told to stop. -/
structure LegsFirst (c : Call) (x : Recorder.Session) : Prop where
  /-- The connection is told that the stream goes, or that another one takes its place. -/
  replaced : ∀ (m : Moment) ticket type y leg,
    (m.input = .intent ticket (.removeLocal type) ∨
      ∃ stream, m.input = .intent ticket (.addLocal type stream)) →
    c.gallery.locals.get? type = some y → x.legs.get? y.stream.id = some leg →
      ∃ accepted, Effect.Ahead (.line (.told x.line (.removeStream leg) accepted))
        (c.meet m).effects
  /-- When the participant leaves, the connection is destroyed. -/
  released : ∀ (m : Moment) ticket, m.input = .intent ticket .hangUp →
    Effect.Ahead (.line (.destroyed x.line)) (c.meet m).effects
  /-- So it is at the end of the call. -/
  ended : Effect.Ahead (.line (.destroyed x.line)) c.shutDown.effects
  /-- Nothing else lets a captured stream go. -/
  kept : ∀ m : Moment, m.input.captures = false → (c.meet m).value.captured.Perm c.captured

theorem legsFirst {c : Call} (h : c.gallery.InOrder) {x : Recorder.Session}
    (hx : c.recorder.session = some x) : c.LegsFirst x where
  replaced m ticket type y leg hi hy hleg := by
    rcases hi with hi | ⟨stream, hi⟩
    · obtain ⟨accepted, hahead⟩ := Recorder.ahead_follow_removeLocal
        (b := { c.board with refusals := m.refusals }) hx hy hleg
      exact ⟨accepted, (follows_removeLocal hi).ahead hahead⟩
    · obtain ⟨accepted, hahead⟩ := Recorder.ahead_follow_addLocal
        (b := { c.board with refusals := m.refusals }) hx hy hleg stream
      exact ⟨accepted, (follows_addLocal hi).ahead hahead⟩
  released m ticket hi := ahead_meet_hangUp hi hx
  ended := ahead_shutDown hx
  kept m hm := captured_perm_meet h hm

section Run

variable (s : Settings) (room : RoomId) (user : UserId) (urls : UrlSource)

theorem tracks_run (moments : List Moment) :
    let c := ((fresh s room user urls .none).run moments).value
    c.recorder.Tracks c.captured := by
  induction moments using List.reverseRecOn with
  | nil => exact fun _ hid => absurd hid List.not_mem_nil
  | append_singleton moments m ih =>
    rw [value_run_concat]
    exact tracks_meet (supplied_run s room user urls moments).inOrder ih m

theorem covers_run (moments : List Moment) :
    let start := fresh s room user urls .none
    let c := (start.run moments).value
    ∀ x, c.recorder.session = some x → start.Smooth moments x → c.recorder.Covers c.captured := by
  induction moments using List.reverseRecOn with
  | nil => exact fun _ hx => nomatch hx
  | append_singleton moments m ih =>
    intro start c x hx hsmooth
    have hvalue : c = ((start.run moments).value.meet m).value := value_run_concat start moments m
    rw [hvalue] at hx ⊢
    exact covers_meet (supplied_run s room user urls moments).inOrder ih hx hsmooth

/-- In every history there is no leg without a session, and every leg is a captured stream. If the
connection refused no stream during the session, and captured streams had different ids, then the
legs are the captured streams. Whatever comes next, legs go before their streams do. The connection
of the session that there is was not destroyed, and whenever another one to the recording service is
opened, all earlier ones were. -/
theorem legs_run (moments : List Moment) :
    let start := fresh s room user urls .none
    let c := (start.run moments).value
    let es := (start.run moments).effects
    (c.recorder.session = none → c.recorder.legs = []) ∧
    (∀ id ∈ c.recorder.legs, ∃ m ∈ c.captured, m.id = id) ∧
    (∀ x, c.recorder.session = some x → start.Smooth moments x →
      c.recorder.legs.Perm (c.captured.map (·.id))) ∧
    (∀ x, c.recorder.session = some x → c.LegsFirst x) ∧
    (∀ x, c.recorder.session = some x →
      (x.line, .recording) ∈ Effect.opened es ∧ x.line ∉ Effect.destroyed es) ∧
    Alone es := by
  intro start c es
  have hin : c.gallery.InOrder := (supplied_run s room user urls moments).inOrder
  have hwired : Wired c es := wired_run s room user urls moments
  have htracks : c.recorder.Tracks c.captured := tracks_run s room user urls moments
  refine ⟨Recorder.legs_of_none, htracks, fun x hx hsmooth => ?_, fun x hx => legsFirst hin hx,
    fun x hx => ?_, alone_run s room user urls moments⟩
  · have hcovers : c.recorder.Covers c.captured :=
      covers_run s room user urls moments x hx hsmooth
    exact htracks.perm hcovers (hsmooth.distinct moments (List.prefix_refl _) x hx rfl)
  · have hline : c.wiring.session = some x.line := by simp [wiring, hx]
    exact ⟨hwired.session_opened _ hline, hwired.session_alive _ hline⟩

end Run

/-- The camera is captured when the recording begins, and replaced later. The desktop is captured
meanwhile, and the connection refuses it. -/
example :
    let refusing : Refusals := { Refusals.none with addStream := fun _ => true }
    let c := ((fresh (.ofRelay "ws://relay") ⟨"room"⟩ ⟨"me"⟩ (.fresh fun _ _ => false) .none).run
      [⟨0, .none, .intent 0 (.addLocal .camera ⟨⟨"front"⟩, []⟩)⟩,
        ⟨1, .none, .relay (.message (.recordOutcome ⟨true, true, ""⟩))⟩,
        ⟨2, refusing, .intent 1 (.addLocal .desktop ⟨⟨"slides"⟩, []⟩)⟩,
        ⟨3, .none, .intent 2 (.addLocal .camera ⟨⟨"rear"⟩, []⟩)⟩]).value
    c.captured.map (·.id) = [⟨"rear"⟩, ⟨"slides"⟩] ∧ c.recorder.legs = [⟨"rear"⟩] := by
  decide

end VideoCall.Call
