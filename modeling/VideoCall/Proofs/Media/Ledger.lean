import Mathlib.Data.Multiset.UnionInter
import VideoCall.Media.Url

/-!
# Books on URLs

URL events keep the books if only URLs are released that are live: each event then leads from some
live URLs to others, and a URL that is released is one less. Books that are kept balance, so a URL
that is made once is released at most once, and what was made and not released is what is live.

## Main definitions

* `Media.UrlEvent.created`, `Media.UrlEvent.released` : the URLs that events make and release.
* `Media.Settles` : events lead from some live URLs to others.

## Main results

* `Media.Settles.balance` : what was live or made is live or released.
* `Media.Settles.released_live`, `Media.Settles.nodup_released`, `Media.Settles.mem_live_iff` : the
  books of a renderer that makes no URL twice.
-/

namespace VideoCall.Media

namespace UrlEvent

/-- The URLs that events make, in order. -/
def created (es : List UrlEvent) : List Url :=
  es.filterMap fun | .minted url => some url | _ => none

/-- The URLs that events release, in order. -/
def released (es : List UrlEvent) : List Url :=
  es.filterMap fun | .revoked url => some url | _ => none

variable (es fs : List UrlEvent)

@[simp]
theorem created_append : created (es ++ fs) = created es ++ created fs := List.filterMap_append

end UrlEvent

open UrlEvent

/-- Events lead from the URLs that are live to those that are live after them, and release live ones
only. -/
inductive Settles : Multiset Url → List UrlEvent → Multiset Url → Prop
  | nil (live : Multiset Url) : Settles live [] live
  | minted {live live' : Multiset Url} {es : List UrlEvent} (url : Url)
      (h : Settles (url ::ₘ live) es live') :
      Settles live (.minted url :: es) live'
  | refused {live live' : Multiset Url} {es : List UrlEvent} (stream : StreamId)
      (h : Settles live es live') :
      Settles live (.refused stream :: es) live'
  | revoked {live live' : Multiset Url} {es : List UrlEvent} (url : Url)
      (h : Settles live es live') :
      Settles (url ::ₘ live) (.revoked url :: es) live'

namespace Settles

variable {live live' live'' : Multiset Url} {es fs : List UrlEvent}

theorem append (h : Settles live es live') (h' : Settles live' fs live'') :
    Settles live (es ++ fs) live'' := by
  induction h with
  | nil => exact h'
  | minted url _ ih => exact .minted url (ih h')
  | refused stream _ ih => exact .refused stream (ih h')
  | revoked url _ ih => exact .revoked url (ih h')

/-- Between two runs of events there are some live URLs. -/
theorem exists_between (h : Settles live (es ++ fs) live'') :
    ∃ live', Settles live es live' ∧ Settles live' fs live'' := by
  induction es generalizing live with
  | nil => exact ⟨live, .nil live, h⟩
  | cons e es ih =>
    cases h with
    | minted url h =>
      obtain ⟨live', h₁, h₂⟩ := ih h
      exact ⟨live', .minted url h₁, h₂⟩
    | refused stream h =>
      obtain ⟨live', h₁, h₂⟩ := ih h
      exact ⟨live', .refused stream h₁, h₂⟩
    | revoked url h =>
      obtain ⟨live', h₁, h₂⟩ := ih h
      exact ⟨live', .revoked url h₁, h₂⟩

/-- A request for a URL makes one live, if it is not refused. -/
theorem request (s : UrlSource) (stream : StreamId) (live : Multiset Url) :
    Settles live [s.event stream] (↑(s.mint? stream).toList + live) := by
  unfold UrlSource.event
  split
  · rename_i url h
    rw [h]
    exact .minted url (.nil _)
  · rename_i h
    rw [h]
    exact .refused stream (by simpa using nil live)

/-- Live URLs are released one after the other. -/
theorem release (urls : List Url) (live : Multiset Url) :
    Settles (↑urls + live) (urls.map .revoked) live := by
  induction urls with
  | nil => simpa using nil live
  | cons url urls ih =>
    rw [← Multiset.cons_coe, Multiset.cons_add]
    exact .revoked url ih

/-- What was live or made is live or released. -/
theorem balance (h : Settles live es live') :
    live + (created es : Multiset Url) = live' + (released es : Multiset Url) := by
  induction h with
  | nil live => rfl
  | @minted live live' es url _ ih =>
    calc live + ((url :: created es : List Url) : Multiset Url)
        = url ::ₘ live + (created es : Multiset Url) := by
          rw [← Multiset.cons_coe, Multiset.add_cons, Multiset.cons_add]
      _ = live' + (released es : Multiset Url) := ih
  | refused stream _ ih => exact ih
  | @revoked live live' es url _ ih =>
    calc url ::ₘ live + (created es : Multiset Url)
        = url ::ₘ (live' + (released es : Multiset Url)) := by rw [Multiset.cons_add, ih]
      _ = live' + ((url :: released es : List Url) : Multiset Url) := by
          rw [← Multiset.cons_coe, Multiset.add_cons]

/-- If no URL was live at first, then what was made is live or released. -/
theorem created_eq (h : Settles 0 es live) :
    (created es : Multiset Url) = live + (released es : Multiset Url) := by
  simpa using h.balance

/-! ### No URL is made twice -/

/-- A URL that is released was made before, and not released before. -/
theorem released_live {url : Url} (h : Settles 0 (es ++ .revoked url :: fs) live)
    (hnew : (created (es ++ .revoked url :: fs)).Nodup) : url ∈ created es ∧ url ∉ released es := by
  obtain ⟨live', h₁, h₂⟩ := h.exists_between
  rw [created_append] at hnew
  have hmade : ((created es : Multiset Url)).Nodup := hnew.of_append_left
  cases h₂ with
  | revoked url _ =>
    have hb := h₁.created_eq
    refine ⟨?_, fun hmem => ?_⟩
    · rw [← Multiset.mem_coe, hb, Multiset.cons_add]
      exact Multiset.mem_cons_self _ _
    · rw [hb, Multiset.cons_add] at hmade
      exact (Multiset.nodup_cons.1 hmade).1 (Multiset.mem_add.2 (Or.inr (Multiset.mem_coe.2 hmem)))

/-- No URL is released twice. -/
theorem nodup_released (h : Settles 0 es live) (hnew : (created es).Nodup) :
    (released es).Nodup := by
  rw [← Multiset.coe_nodup, h.created_eq] at hnew
  exact (Multiset.nodup_add.1 hnew).2.1

/-- The live URLs are those that were made and not released. -/
theorem mem_live_iff (h : Settles 0 es live) (hnew : (created es).Nodup) {url : Url} :
    url ∈ live ↔ url ∈ created es ∧ url ∉ released es := by
  have hb := h.created_eq
  rw [← Multiset.coe_nodup, hb] at hnew
  have hdisj := (Multiset.nodup_add.1 hnew).2.2
  rw [← Multiset.mem_coe, hb, Multiset.mem_add, Multiset.mem_coe]
  constructor
  · exact fun hl => ⟨Or.inl hl, fun hr => Multiset.disjoint_left.1 hdisj hl (Multiset.mem_coe.2 hr)⟩
  · rintro ⟨hl | hr, hn⟩
    · exact hl
    · exact absurd hr hn

end Settles

end VideoCall.Media
