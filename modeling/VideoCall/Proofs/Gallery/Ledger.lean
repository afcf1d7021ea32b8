import VideoCall.Proofs.Gallery.Consistency
import VideoCall.Proofs.Media.Ledger

/-!
# The URLs of a gallery

A URL is made for a stream that comes on show and released when the stream goes, so the live URLs
are those that the streams in the gallery carry. The law is proved step by step: what one step does
to URLs leads from the URLs carried before to the URLs carried after. A step that takes a track out
of a stream needs that the gallery is in order: else it could drop a second stream with the same id,
whose URL it does not release.

## Main definitions

* `Gallery.carried` : the URLs that the streams of a gallery carry.
* `Gallery.Balanced` : what an outcome does to URLs leads to those its gallery carries.

## Main results

* `Gallery.InOrder.balanced_apply` : every change keeps the books.
* `Gallery.urls_settled_run` : in every history URLs are released once, and only those are live that
  are carried.
-/

namespace VideoCall

open Media Outcome

/-! ### Values taken from a table -/

namespace Table

variable {κ ν α : Type} [Ord κ]

/-- What the values of a table contribute. -/
def gather (f : ν → List α) (t : Table κ ν) : Multiset α := ↑(t.values.flatMap f)

variable [Std.TransOrd κ] [Std.LawfulEqOrd κ]

theorem gather_of_get? (f : ν → List α) {t : Table κ ν} {k : κ} {v : ν} (h : t.get? k = some v) :
    gather f t = ↑(f v) + gather f (t.erase k) := by
  have hperm := ((entries_perm_of_get? h).map Prod.snd).flatMap_right f
  exact Multiset.coe_eq_coe.2 hperm

theorem gather_insert (f : ν → List α) (t : Table κ ν) (k : κ) (v : ν) :
    gather f (t.insert k v) = ↑(f v) + gather f (t.erase k) := by
  rw [gather_of_get? f (k := k) (v := v) (by simp), erase_insert]

end Table

namespace Gallery

/-! ### Carried URLs -/

/-- The URLs of streams of participants. -/
def urlsOf (l : List RemoteStream) : List Url := l.flatMap (·.url.toList)

/-- The URLs that the streams of a gallery carry. -/
def carried (g : Gallery) : Multiset Url :=
  g.users.gather (fun x => urlsOf x.streams) + g.locals.gather fun m => m.url.toList

/-- A gallery carries the URLs of a participant and those of all others. -/
theorem carried_split (g : Gallery) (u : UserId) :
    carried g = ↑(urlsOf (streamsOf g.users u)) + carried { g with users := g.users.erase u } := by
  unfold carried streamsOf
  cases h : g.users.get? u with
  | none => simp [Table.erase_of_get?_eq_none h, urlsOf]
  | some x =>
    rw [Table.gather_of_get? _ h, Multiset.add_assoc]
    rfl

theorem carried_insert (g : Gallery) (u : UserId) (x : Shown) :
    carried { g with users := g.users.insert u x } =
      ↑(urlsOf x.streams) + carried { g with users := g.users.erase u } := by
  unfold carried
  dsimp only
  rw [Table.gather_insert, Multiset.add_assoc]

theorem carried_setShown (g : Gallery) (u : UserId) (x : Shown) :
    carried { g with users := setShown g.users u x } =
      ↑(urlsOf x.streams) + carried { g with users := g.users.erase u } := by
  unfold setShown
  split
  · rename_i h
    simp [List.isEmpty_iff.1 h, urlsOf]
  · exact carried_insert g u x

theorem urlsOf_addTo (s : StreamId) (t : Track) (l : List RemoteStream) :
    urlsOf (addTo s t l) = urlsOf l := by
  rw [urlsOf, urlsOf, addTo, List.flatMap_map]
  refine List.flatMap_congr fun r _ => ?_
  split <;> rfl

theorem removeFrom_cons_of_ne {s : StreamId} {r : RemoteStream} (hid : r.id ≠ s)
    (hne : r.stream.tracks ≠ [])
    (id : TrackId) (l : List RemoteStream) : removeFrom s id (r :: l) = r :: removeFrom s id l := by
  have : ¬ r.stream.isEmpty := fun h => hne (Stream.isEmpty_iff.1 h)
  simp [removeFrom, hid, this]

/-- Streams with other ids are kept. -/
theorem removeFrom_eq_self {s : StreamId} {l : List RemoteStream} (hid : ∀ r ∈ l, r.id ≠ s)
    (hne : ∀ r ∈ l, r.stream.tracks ≠ []) (id : TrackId) : removeFrom s id l = l := by
  induction l with
  | nil => rfl
  | cons r l ih =>
    rw [removeFrom_cons_of_ne (hid r List.mem_cons_self) (hne r List.mem_cons_self),
      ih (fun q hq => hid q (List.mem_cons_of_mem _ hq))
        fun q hq => hne q (List.mem_cons_of_mem _ hq)]

/-- Of streams with different ids only the named one can go with its track. -/
theorem urlsOf_removeFrom {l : List RemoteStream} {r : RemoteStream} (hids : (l.map (·.id)).Nodup)
    (hne : ∀ r ∈ l, r.stream.tracks ≠ []) (hr : r ∈ l) (id : TrackId) :
    (urlsOf l).Perm
      ((if (r.stream.remove id).isEmpty then r.url.toList else []) ++
        urlsOf (removeFrom r.id id l)) := by
  induction l with
  | nil => cases hr
  | cons r' l ih =>
    obtain ⟨hnot, hids⟩ := List.nodup_cons.1 hids
    have hne' : ∀ q ∈ l, q.stream.tracks ≠ [] := fun q hq => hne q (List.mem_cons_of_mem _ hq)
    rcases List.mem_cons.1 hr with rfl | hr
    · -- the named stream is the first, and all others are kept
      have hrest : removeFrom r.id id l = l :=
        removeFrom_eq_self (fun q hq he => hnot (List.mem_map.2 ⟨q, hq, he⟩)) hne' id
      have hcons : removeFrom r.id id (r :: l) =
          (if (r.stream.remove id).isEmpty then [] else
            [{ r with stream := r.stream.remove id }]) ++ l := by
        conv_rhs => rw [← hrest]
        by_cases he : (r.stream.remove id).isEmpty <;> simp [removeFrom, he]
      rw [hcons]
      by_cases he : (r.stream.remove id).isEmpty <;> simp [he, urlsOf]
    · have hid : r'.id ≠ r.id := fun he => hnot (List.mem_map.2 ⟨r, hr, he.symm⟩)
      rw [removeFrom_cons_of_ne hid (hne r' List.mem_cons_self)]
      exact ((ih hids hne' hr).append_left _).trans (List.perm_append_comm_assoc _ _ _)

/-! ### Steps that keep the books -/

/-- What an outcome does to URLs leads from the given live URLs to those its gallery carries. -/
def Balanced (live : Multiset Url) (o : Outcome Gallery) : Prop :=
  Settles live (Effect.urls o.effects) (carried o.value)

namespace Balanced

variable {live : Multiset Url} {o : Outcome Gallery} {f : Gallery → Outcome Gallery} {g : Gallery}

theorem pure (g : Gallery) : Balanced (carried g) (pure g) := .nil _

theorem bind (h : Balanced live o) (hf : Balanced (carried o.value) (f o.value)) :
    Balanced live (o >>= f) := by
  unfold Balanced
  rw [effects_bind, Effect.urls_append]
  exact h.append hf

/-- The gauge of streams has no part in the books, nor have the records of slots. -/
theorem andCount (h : Balanced live o) (f : Gallery → Gallery)
    (hf : ∀ g, carried (f g) = carried g) :
    Balanced live (o >>= fun g => do
      (f g).showCount
      return f g) := by
  refine h.bind ?_
  rw [← hf]
  exact .nil _

theorem forEach {ι : Type} {step : Gallery → ι → Outcome Gallery} {p : Gallery → Prop} {is : List ι}
    (hp : p g) (h : ∀ g, p g → ∀ i, p (step g i).value ∧ Balanced (carried g) (step g i)) :
    Balanced (carried g) (forEach step is g) := by
  induction is generalizing g with
  | nil => exact .nil _
  | cons i is ih =>
    obtain ⟨hv, hb⟩ := h g hp i
    exact hb.bind (ih hv)

end Balanced

theorem urls_revoke (url : Option Url) :
    Effect.urls (revoke url).effects = url.toList.map .revoked := by
  cases url <;> rfl

theorem urls_stopAll (m : Stream) : Effect.urls (stopAll m).effects = [] := by
  rw [stopAll, effects_emitAll, Effect.urls, List.filterMap_map, List.filterMap_eq_nil_iff]
  exact fun _ _ => rfl

theorem urls_missed_revoke (b b' : Bool) (m : Missing) (url : Option Url) (g : Gallery) :
    Effect.urls (do
      when b (emit (.missed m))
      when b' (revoke url)
      return g : Outcome Gallery).effects = (if b' then url.toList else []).map .revoked := by
  have hmissed : Effect.urls (when b (emit (.missed m))).effects = [] := by cases b <;> rfl
  simp only [effects_bind, effects_pure, List.append_nil, Effect.urls_append]
  rw [hmissed, List.nil_append, effects_when]
  split
  · exact urls_revoke url
  · rfl

/-! ### Streams that come on show and go -/

theorem balanced_attach (g : Gallery) (a : Attribution) (t : Track) :
    Balanced (carried g) (g.attach a t) := by
  have hstreams := streams_getD g.users a.user
  dsimp only [attach]
  split
  · unfold Balanced
    rw [value_pure, carried_insert, urlsOf_addTo, hstreams, ← carried_split]
    exact .nil _
  · have hcarried :
        ∀ url, (↑(urlsOf (streamsOf g.users a.user ++ [⟨.ofTracks a.stream [t], a.stream, url⟩])) :
        Multiset Url) = ↑url.toList + ↑(urlsOf (streamsOf g.users a.user)) := by
      intro url
      rw [Multiset.coe_add, Multiset.coe_eq_coe]
      refine (List.perm_append_comm.trans ?_).symm
      cases url <;> simp [urlsOf]
    have h := Settles.request g.urls a.stream (carried g)
    have hv : carried { g with
        users := g.users.insert a.user ⟨((g.users.get? a.user).getD ⟨a.user, []⟩).user,
          streamsOf g.users a.user ++
            [⟨.ofTracks a.stream [t], a.stream, g.urls.mint? a.stream⟩]⟩ } =
        ↑(g.urls.mint? a.stream).toList + carried g := by
      rw [carried_insert, hcarried, Multiset.add_assoc, ← carried_split]
    rw [← hv] at h
    rw [hstreams]
    exact h

section Detach

variable {g : Gallery} {P : UserId → StreamId → Track → Prop}

theorem balanced_detach (h : Grouped g.users P) (a : Attribution) (id : TrackId) :
    Balanced (carried g) (g.detach a id) := by
  unfold detach
  split
  · exact .nil _
  · rename_i shown hu
    have hg := h.groups_of_get? hu
    split
    · exact .nil _
    · rename_i r hr
      have hid : r.id = a.stream := by simpa using List.find?_some hr
      have hperm := urlsOf_removeFrom hg.nodup_ids hg.nonempty (List.mem_of_find?_eq_some hr) id
      rw [hid] at hperm
      have hcarried : carried g = ↑(if (r.stream.remove id).isEmpty then r.url.toList else []) +
          (↑(urlsOf (removeFrom a.stream id shown.streams)) +
            carried { g with users := g.users.erase a.user }) := by
        rw [carried_split g a.user, streamsOf_of_get? hu, ← Multiset.add_assoc, Multiset.coe_add,
          Multiset.coe_eq_coe.2 hperm]
      rw [← carried_setShown g a.user
        ⟨shown.user, removeFrom a.stream id shown.streams⟩] at hcarried
      unfold Balanced
      rw [urls_missed_revoke, hcarried]
      exact .release _ _

theorem balanced_removeTrack (h : Grouped g.users P) (id : TrackId) :
    Balanced (carried g) (g.removeTrack id) := by
  unfold removeTrack
  split
  · exact .pure g
  · split
    · exact .nil _
    · split
      · exact .pure g
      · rename_i k _ _ x _ _ a _
        exact (balanced_detach
          (g := { g with slots := g.slots.insert k { x with attribution := none } }) h
          a id).andCount (fun g => g) fun _ => rfl

theorem balanced_leaveOther (h : Grouped g.users P) (slot : Slot) (id : TrackId) :
    Balanced (carried g) (g.leaveOther slot id) := by
  unfold leaveOther
  split
  · exact .pure g
  · split
    · exact .pure g
    · exact (balanced_removeTrack h id).bind (.nil _)

theorem balanced_yieldSlot (h : Grouped g.users P) (x : Holding) (id : TrackId) :
    Balanced (carried g) (g.yieldSlot x id) := by
  refine (balanced_removeTrack h x.track.id).bind ?_
  split <;> exact .nil _

theorem balanced_place (h : Grouped g.users P) (slot : Slot) (t : Track) (a : Attribution) :
    Balanced (carried g) (g.place slot t a) :=
  (balanced_leaveOther h slot t.id).bind
    ((balanced_attach _ a t).andCount (fun g => { g with
      index := g.index.insert t.id slot
      slots := g.slots.insert slot ⟨t, some a⟩ }) fun _ => rfl)

theorem balanced_detachHeld (h : Grouped g.users P) (x : Holding) :
    Balanced (carried g) (g.detachHeld x) := by
  unfold detachHeld
  split
  · exact balanced_detach h _ _
  · exact .pure g

end Detach

namespace InOrder

variable {g : Gallery} (h : g.InOrder)
include h

theorem balanced_addTrack (slot : Slot) (t : Track) (raw : StreamId) :
    Balanced (carried g) (g.addTrack slot t raw) := by
  dsimp only [Gallery.addTrack]
  split
  · exact balanced_place h.grouped slot t _
  · rename_i x hs
    split
    · exact .pure g
    · exact (balanced_yieldSlot h.grouped x t.id).bind
        (balanced_place (h.ready_yieldSlot hs t.id).grouped slot t _)

theorem balanced_follow (news : Slot × Wire.Announcement) :
    Balanced (carried g) (g.follow news) := by
  dsimp only [Gallery.follow]
  repeat' split
  · exact .pure g
  · exact h.balanced_addTrack _ _ _
  · exact .pure g
  · exact (balanced_removeTrack h.grouped _).bind ((h.removeTrack _).balanced_addTrack _ _ _)

theorem balanced_announce (sender : UserId) (batch : List Wire.Announcement) :
    Balanced (carried g) (g.announce sender batch) := by
  have h₁ := (h.recast_withdraw (g.undescribed sender (.ofBatch sender batch))).inOrder
  have hwithdraw : Balanced (carried g)
      (Outcome.forEach withdraw (g.undescribed sender (.ofBatch sender batch)) g) :=
    .forEach h
      fun _ hg id => ⟨hg.removeTrack id, (balanced_removeTrack hg.grouped id).bind (.nil _)⟩
  generalize ho : Outcome.forEach withdraw (g.undescribed sender (.ofBatch sender batch)) g =
    o at h₁ hwithdraw
  have hswap := h₁.withAnnounced (o.value.announced.replace sender (.ofBatch sender batch))
  have hfollow : Balanced (carried o.value)
      (Outcome.forEach Gallery.follow (Announcements.ofBatch sender batch).entries { o.value with
        announced := o.value.announced.replace sender (.ofBatch sender batch) }) :=
    .forEach hswap fun _ hg news => ⟨hg.follow news, hg.balanced_follow news⟩
  subst ho
  exact hwithdraw.bind (f := fun g => Outcome.forEach Gallery.follow _ { g with
    announced := g.announced.replace sender (.ofBatch sender batch) }) hfollow

end InOrder

/-! ### Participants and connections -/

/-- Steps that each release some URLs release them all. -/
theorem urls_forEach {σ ι : Type} {step : σ → ι → Outcome σ} {f : ι → List Url}
    (h : ∀ s i, Effect.urls (step s i).effects = (f i).map .revoked) (is : List ι) (s : σ) :
    Effect.urls (forEach step is s).effects = (is.flatMap f).map .revoked := by
  induction is generalizing s with
  | nil => rfl
  | cons i is ih =>
    rw [forEach_cons, effects_bind, Effect.urls_append, h, ih, List.flatMap_cons, List.map_append]

theorem urls_dropStream (g : Gallery) (r : RemoteStream) :
    Effect.urls (g.dropStream r).effects = r.url.toList.map .revoked := by
  rw [dropStream, effects_bind, Effect.urls_append, urls_revoke]
  exact List.append_nil _

theorem balanced_unassociate (g : Gallery) (user : UserId) :
    Balanced (carried g) (g.unassociate user) := by
  unfold unassociate
  split
  · exact .pure g
  · rename_i shown hu
    obtain ⟨slots, hv, -⟩ := value_dropStreams { g with users := g.users.erase user } shown.streams
    refine Balanced.andCount ?_ (fun g => g) fun _ => rfl
    unfold Balanced
    rw [urls_forEach urls_dropStream, hv, carried_split g user,
      streamsOf_of_get? hu]
    exact .release _ _

namespace InOrder

variable {g : Gallery} (h : g.InOrder)
include h

theorem balanced_dropSlot (slot : Slot) : Balanced (carried g) (g.dropSlot slot) := by
  unfold Gallery.dropSlot
  split
  · exact .pure g
  · rename_i x _
    exact (balanced_detachHeld (g := { g with slots := g.slots.erase slot }) h.grouped x).bind
      (.nil _)

theorem balanced_removePeer (peer : UserId) : Balanced (carried g) (g.removePeer peer) :=
  (Balanced.forEach h fun _ hg slot => ⟨hg.dropSlot slot, hg.balanced_dropSlot slot⟩).andCount
    (fun g => g) fun _ => rfl

end InOrder

/-! ### Captured streams, and the end -/

theorem urls_tell (recording : Bool) (e : LegEvent) :
    Effect.urls (tell recording e).effects = [] := by
  cases recording <;> rfl

theorem urls_releaseLocal (m : LocalStream) :
    Effect.urls (releaseLocal m).effects = m.url.toList.map .revoked := by
  rw [releaseLocal, effects_bind, Effect.urls_append, urls_stopAll, List.nil_append, urls_revoke]

theorem urls_releaseRemote (r : RemoteStream) :
    Effect.urls (releaseRemote r).effects = r.url.toList.map .revoked := by
  rw [releaseRemote, effects_bind, Effect.urls_append, urls_stopAll, List.nil_append, urls_revoke]

theorem carried_withLocal (g : Gallery) (type : StreamType) (m : LocalStream) (urls : UrlSource) :
    carried { g with locals := g.locals.insert type m, urls := urls } =
      ↑m.url.toList + carried { g with locals := g.locals.erase type } := by
  unfold carried
  dsimp only
  rw [Table.gather_insert, ← Multiset.add_assoc, Multiset.add_comm (Table.gather _ g.users),
    Multiset.add_assoc]

theorem carried_local (g : Gallery) {type : StreamType} {m : LocalStream}
    (hm : g.locals.get? type = some m) :
    carried g = ↑m.url.toList + carried { g with locals := g.locals.erase type } := by
  have := carried_withLocal g type m g.urls
  rwa [Table.insert_of_get? hm] at this

theorem balanced_removeLocal (g : Gallery) (recording : Bool) (type : StreamType) :
    Balanced (carried g) ((·.1) <$> g.removeLocal recording type) := by
  unfold removeLocal
  split
  · exact .pure g
  · rename_i m hm
    unfold Balanced
    rw [effects_map, effects_bind, effects_bind, Effect.urls_append, Effect.urls_append, urls_tell,
      urls_releaseLocal, effects_pure, carried_local g hm]
    simpa [Effect.urls] using Settles.release m.url.toList _

theorem get?_locals_removeLocal (g : Gallery) (recording : Bool) (type : StreamType) :
    (g.removeLocal recording type).value.1.locals.get? type = none := by
  unfold removeLocal
  split
  · rename_i hm
    exact hm
  · simp [Table.get?_erase]

theorem balanced_addLocal (g : Gallery) (recording : Bool) (type : StreamType) (stream : Stream) :
    Balanced (carried g) ((·.1) <$> g.addLocal recording type stream) := by
  have hgone := g.get?_locals_removeLocal recording type
  have h := g.balanced_removeLocal recording type
  unfold Balanced at h ⊢
  rw [effects_map, value_map] at h
  rw [effects_map, value_map, addLocal]
  generalize g.removeLocal recording type = o at h hgone ⊢
  obtain ⟨⟨g₁, m⟩, es⟩ := o
  simp only [effects_bind, value_bind, Effect.urls_append, urls_tell, effects_emit, effects_pure,
    value_pure]
  refine h.append ?_
  rw [carried_withLocal, Table.erase_of_get?_eq_none hgone]
  simpa [Effect.urls] using Settles.request g₁.urls stream.id (carried g₁)

theorem balanced_setMirror (g : Gallery) (type : StreamType) (t : Track) :
    Balanced (carried g) (pure (g.setMirror type t)) := by
  have hcarried : carried (g.setMirror type t) = carried g := by
    unfold setMirror Table.modify
    repeat' split
    · rename_i m hm
      rw [carried_withLocal g type _ g.urls, carried_local g hm]
    · rfl
    · rfl
  unfold Balanced
  rw [value_pure, hcarried]
  exact .nil _

theorem balanced_reset (g : Gallery) : Balanced (carried g) g.reset := by
  unfold Balanced
  have hstops : Effect.urls ((g.slots.values.map fun h => Effect.stopped h.track)) = [] := by
    rw [Effect.urls, List.filterMap_map, List.filterMap_eq_nil_iff]
    exact fun _ _ => rfl
  have hlocals :=
    Settles.release (g.locals.values.flatMap (·.url.toList))
      (g.users.gather fun x => urlsOf x.streams)
  have husers := Settles.release (g.users.values.flatMap fun x => urlsOf x.streams) 0
  have hevents : Effect.urls g.reset.effects =
      (g.locals.values.flatMap (·.url.toList)).map .revoked ++
        (g.users.values.flatMap fun x => urlsOf x.streams).map .revoked := by
    have hflat : (g.users.values.flatMap fun x => urlsOf x.streams) =
        (g.users.values.flatMap (·.streams)).flatMap (·.url.toList) := by
      rw [List.flatMap_assoc]
      rfl
    have hreleased := urls_forEach (fun (_ : Unit) => urls_releaseLocal) g.locals.values ()
    have hreleased' := urls_forEach (fun (_ : Unit) => urls_releaseRemote)
      (g.users.values.flatMap (·.streams)) ()
    rw [hflat, ← hreleased, ← hreleased']
    simp only [reset, effects_bind, Effect.urls_append, effects_emitAll, hstops, List.nil_append]
    exact congrArg (_ ++ ·) (List.append_nil _)
  rw [hevents, carried, Multiset.add_comm]
  rw [Multiset.add_zero] at husers
  exact hlocals.append husers

/-! ### Histories -/

/-- Every change keeps the books. -/
theorem InOrder.balanced_apply {g : Gallery} (h : g.InOrder) (change : Change) :
    Balanced (carried g) (g.apply change) := by
  cases change with
  | addTrack slot t raw => exact h.balanced_addTrack slot t raw
  | removeTrack id => exact balanced_removeTrack h.grouped id
  | unassociate user => exact g.balanced_unassociate user
  | removePeer peer => exact h.balanced_removePeer peer
  | announce sender batch => exact h.balanced_announce sender batch
  | reset => exact g.balanced_reset
  | addLocal recording type stream => exact g.balanced_addLocal recording type stream
  | removeLocal recording type => exact g.balanced_removeLocal recording type
  | setMirror type t => exact g.balanced_setMirror type t

/-- What a history does to URLs leads from none to those that are carried. -/
theorem settles_run (urls : UrlSource) (changes : List Change) :
    Settles 0 (Effect.urls ((empty urls).run changes).effects)
      (carried ((empty urls).run changes).value) :=
  Balanced.forEach (p := InOrder) (inOrder_empty urls) fun _ hg change =>
    ⟨hg.apply change, hg.balanced_apply change⟩

/-- In every history of a gallery whose renderer makes no URL twice, a URL that is released was made
before and is not released again, and those made and not released are those that the streams in the
gallery carry; none are left once the gallery is reset. -/
theorem urls_settled_run (urls : UrlSource) (changes : List Change)
    (hnew : (UrlEvent.created (Effect.urls ((empty urls).run changes).effects)).Nodup) :
    let es := Effect.urls ((empty urls).run changes).effects
    (∀ before url after, es = before ++ .revoked url :: after →
      url ∈ UrlEvent.created before ∧ url ∉ UrlEvent.released before) ∧
    (UrlEvent.released es).Nodup ∧
    (∀ url, url ∈ UrlEvent.created es ∧ url ∉ UrlEvent.released es ↔
      url ∈ carried ((empty urls).run changes).value) ∧
    (changes.getLast? = some .reset → ∀ url ∈ UrlEvent.created es, url ∈ UrlEvent.released es) := by
  have h := settles_run urls changes
  refine ⟨?_, h.nodup_released hnew, fun url => (h.mem_live_iff hnew).symm,
    fun hlast url hurl => ?_⟩
  · intro before url after he
    rw [he] at h hnew
    exact h.released_live hnew
  · obtain ⟨init, rfl⟩ := List.getLast?_eq_some_iff.1 hlast
    have hcarried : carried ((empty urls).run (init ++ [.reset])).value = 0 := by
      rw [value_run_append]
      rfl
    by_contra hn
    have := (h.mem_live_iff hnew).2 ⟨hurl, hn⟩
    rw [hcarried] at this
    exact Multiset.notMem_zero _ this

/-- The renderer refuses the second stream, and both URLs that it makes are released by the end. -/
theorem urls_released_at_reset :
    let es := Effect.urls ((empty (.fresh fun asked _ => asked = 1)).run
      [.addTrack ⟨⟨"ann"⟩, ⟨"0"⟩⟩ ⟨0, ⟨"picture"⟩, .video, "front"⟩ ⟨"camera"⟩,
        .addTrack ⟨⟨"ann"⟩, ⟨"1"⟩⟩ ⟨1, ⟨"voice"⟩, .audio, ""⟩ ⟨"headset"⟩,
        .addLocal false .desktop ⟨⟨"slides"⟩, []⟩, .removeTrack ⟨"picture"⟩, .reset]).effects
    UrlEvent.created es = [.minted ⟨"camera"⟩ 0, .minted ⟨"slides"⟩ 1] ∧
      ∀ url ∈ UrlEvent.created es, url ∈ UrlEvent.released es :=
  ⟨by decide, (urls_settled_run _ _ (by decide)).2.2.2 rfl⟩

end Gallery

end VideoCall
