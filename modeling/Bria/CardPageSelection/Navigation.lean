import Bria.TelegramState.State

/-!
# The pages of a card

`cardpageselection/navigation.go`: which page of a card is shown when its pages have changed, and
where a button leads. `Reflow` finds a stored view in other pages by its anchor. What it returns is
`Current`, and it leaves such a view alone, from which the rest follows (`navigation_laws`).
-/

namespace Bria.CardPageSelection

open Go TelegramState List

/-- `View`. -/
structure View where
  (page pages : Int)
  anchor : GoString
  followLatest : Bool

/-- The actions of `Navigate`. -/
inductive Action where
  | previous | next | latest
  | other (text : GoString)

/-- The loop of `validateAnchors` from a page on, after some anchors. -/
def validatePages : Nat → List GoString → List (List GoString) → Except Err Unit
  | _, _, [] => .ok ()
  | number, seen, page :: rest => do
    refuse page.isEmpty
      (.message ("content page " ++ toString number ++ " must contain at least one anchor"))
    eachOnce (fun anchor => refuse anchor.isEmpty
        (.message ("content page " ++ toString number ++ " contains an empty anchor")))
      (fun _ => .ok ()) (.message "paginated content anchors must be globally unique") seen page
    validatePages (number + 1) (page.reverse ++ seen) rest

section

variable (anchors : List (List GoString)) (view : View)

/-- `validateAnchors`. -/
def validateAnchors : Except Err Unit := do
  refuse anchors.isEmpty (.message "paginated content must contain at least one page")
  validatePages 1 [] anchors

/-- `viewAt` of a page that exists and has an anchor. -/
def viewAt (page : Int) (follow : Bool) : View :=
  ⟨page, anchors.length, (anchors.getD (page - 1).toNat []).headD [], follow⟩

/-- The view that `Reflow` finds. -/
def resolved : View :=
  if view.followLatest then viewAt anchors anchors.length true
  else if view.anchor ≠ [] then
    match anchors.findIdx? (·.contains view.anchor) with
    | some i => { viewAt anchors (i + 1) false with anchor := view.anchor }
    | none => viewAt anchors 1 false
  else if view.page ≤ anchors.length then viewAt anchors view.page false
  else viewAt anchors 1 false

/-- `Reflow`. -/
def reflow : Except Err View := do
  refuse (view.page < 1 || view.pages < 1 || view.pages < view.page)
    (.message "page view must contain a current positive page within its positive total")
  validateAnchors anchors
  .ok (resolved anchors view)

/-- The view after a step, which may lead from the last page to the first or back. -/
def stepTo (target : Int) : View :=
  let page : Int := if target < 1 then anchors.length else if anchors.length < target then 1
    else target
  viewAt anchors page (page = anchors.length)

/-- Where an action leads from a page. -/
def moved (page : Int) : Action → Except Err View
  | .latest => .ok (viewAt anchors anchors.length true)
  | .previous => .ok (stepTo anchors (page - 1))
  | .next => .ok (stepTo anchors (page + 1))
  | .other text =>
    .error (.message ("action " ++ quoted text ++ " is not a page navigation action"))

/-- `Navigate`. -/
def navigate (action : Action) : Except Err View := do
  moved anchors (← reflow anchors view).page action

/-- What `validateAnchors` accepts. -/
@[mk_iff]
structure Paginated : Prop where
  pages : anchors ≠ []
  page : ∀ page ∈ anchors, page ≠ []
  anchor : ∀ anchor ∈ anchors.flatten, anchor ≠ []
  nodup : anchors.flatten.Nodup

/-- An anchor is on the page with a number. -/
def OnPage (number : Int) (anchor : GoString) : Prop :=
  ∃ page, anchors[(number - 1).toNat]? = some page ∧ anchor ∈ page

/-- A view of the pages as they are. -/
structure Current : Prop where
  low : 1 ≤ view.page
  high : view.page ≤ anchors.length
  pages : view.pages = anchors.length
  tail : view.followLatest → view = viewAt anchors anchors.length true
  found : OnPage anchors view.page view.anchor

end

variable {anchors : List (List GoString)} {view v : View} {page : Int} {follow : Bool}

theorem validatePages_eq_ok {number : Nat} {seen : List GoString} :
    validatePages number seen anchors = .ok () ↔ (∀ page ∈ anchors, page ≠ []) ∧
      (∀ anchor ∈ anchors.flatten, anchor ≠ [] ∧ anchor ∉ seen) ∧ anchors.flatten.Nodup := by
  induction anchors generalizing number seen with
  | nil => simp [validatePages]
  | cons page rest ih =>
    simp only [validatePages, check_eq_ok, refuse_eq_ok, eachOnce_eq_ok, ih, isEmpty_eq_false_iff,
      forall_mem_cons, flatten_cons, nodup_append', mem_append, mem_reverse, true_and]
    grind [List.disjoint_left]

theorem validateAnchors_eq_ok : validateAnchors anchors = .ok () ↔ Paginated anchors := by
  simp only [validateAnchors, check_eq_ok, refuse_eq_ok, validatePages_eq_ok, isEmpty_eq_false_iff,
    not_mem_nil, not_false_eq_true, and_true, paginated_iff]

section

variable (h : Paginated anchors)
include h

theorem viewAt_current (hlow : 1 ≤ page) (hhigh : page ≤ anchors.length)
    (hfollow : follow → page = anchors.length) : Current anchors (viewAt anchors page follow) := by
  have hlt : (page - 1).toNat < anchors.length := by omega
  refine ⟨hlow, hhigh, rfl, fun hf => ?_, _, getElem?_eq_getElem hlt, ?_⟩
  · obtain rfl : follow = true := hf
    rw [hfollow rfl]
  -- The first anchor of a page is on it.
  have hpage := h.page _ (getElem_mem hlt)
  rw [viewAt, getD_eq_getElem?_getD, getElem?_eq_getElem hlt, Option.getD_some]
  cases hcase : anchors[(page - 1).toNat] with
  | nil => exact absurd hcase hpage
  | cons anchor rest => exact mem_cons_self

theorem stepTo_current (target : Int) : Current anchors (stepTo anchors target) := by
  have hpos := length_pos_iff.mpr h.pages
  refine viewAt_current h ?_ ?_ fun hlast => decide_eq_true_iff.mp hlast
  all_goals split_ifs <;> omega

theorem findIdx?_of_current (hv : Current anchors v) :
    anchors.findIdx? (·.contains v.anchor) = some (v.page - 1).toNat := by
  obtain ⟨page, hpage, hfound⟩ := hv.found
  obtain ⟨hlt, rfl⟩ := List.getElem?_eq_some_iff.mp hpage
  refine findIdx?_eq_some_iff_getElem.mpr ⟨hlt, contains_iff_mem.mpr hfound, fun j hj hat => ?_⟩
  -- The anchor would be on two pages.
  have hdisjoint := pairwise_iff_getElem.mp (nodup_flatten.mp h.nodup).2 j _ (by omega) hlt hj
  exact hdisjoint (contains_iff_mem.mp hat) hfound

theorem reflow_eq_ok (hlow : 1 ≤ view.page) (hhigh : view.page ≤ view.pages) :
    reflow anchors view = .ok (resolved anchors view) := by
  refine check_eq_ok.mpr ⟨?_, check_eq_ok.mpr ⟨validateAnchors_eq_ok.mpr h, rfl⟩⟩
  simp only [refuse_eq_ok, Bool.or_eq_false_iff, decide_eq_false_iff_not]
  omega

/-- A view of the pages as they are is found as it is. -/
theorem resolved_of_current (hv : Current anchors v) : resolved anchors v = v := by
  by_cases hfollow : v.followLatest
  · rw [resolved, if_pos hfollow]
    exact (hv.tail hfollow).symm
  obtain ⟨page, hpage, hfound⟩ := hv.found
  have hanchor := h.anchor _ (mem_flatten_of_mem (mem_of_getElem? hpage) hfound)
  rw [resolved, if_neg hfollow, if_pos hanchor, findIdx?_of_current h hv]
  have hlow := hv.low
  have hnumber : ((v.page - 1).toNat + 1 : Int) = v.page := by omega
  simp only [viewAt, hnumber, ← hv.pages, ← Bool.eq_false_iff.mpr hfollow]

theorem resolved_current (hlow : 1 ≤ view.page) : Current anchors (resolved anchors view) := by
  have hpos := length_pos_iff.mpr h.pages
  have hfirst : Current anchors (viewAt anchors 1 false) :=
    viewAt_current h (Int.le_refl 1) (by omega) nofun
  unfold resolved
  split_ifs with hfollow hanchor hpage
  · exact viewAt_current h (by omega) (Int.le_refl _) fun _ => rfl
  · split
    · rename_i i hfind
      obtain ⟨hlt, hat, -⟩ := findIdx?_eq_some_iff_getElem.mp hfind
      have hview : Current anchors (viewAt anchors (i + 1) false) :=
        viewAt_current h (by omega) (by omega) nofun
      refine ⟨hview.low, hview.high, rfl, nofun, anchors[i], ?_, contains_iff_mem.mp hat⟩
      rw [viewAt, Int.add_sub_cancel, Int.toNat_natCast, getElem?_eq_getElem hlt]
    · exact hfirst
  · exact viewAt_current h hlow hpage nofun
  · exact hfirst

/-- The anchor is kept if there is a page with it. -/
theorem resolved_anchor (hfollow : ¬ view.followLatest)
    (hmem : view.anchor ∈ anchors.flatten) : (resolved anchors view).anchor = view.anchor := by
  rw [resolved, if_neg hfollow, if_pos (h.anchor _ hmem)]
  obtain ⟨page, hpage, hon⟩ := mem_flatten.mp hmem
  split
  · rfl
  · rename_i hfind
    have hnot := findIdx?_eq_none_iff.mp hfind _ hpage
    exact absurd (contains_iff_mem.mpr hon) (Bool.eq_false_iff.mp hnot)

theorem navigate_eq (hlow : 1 ≤ view.page) (hhigh : view.page ≤ view.pages) (action : Action) :
    navigate anchors view action = moved anchors (resolved anchors view).page action := by
  rw [navigate, reflow_eq_ok h hlow hhigh]
  rfl

end

/-- `Reflow` and `Navigate` with pages that may not be those a view was made for. -/
theorem navigation_laws (h : Paginated anchors) (view : View) (hlow : 1 ≤ view.page)
    (hhigh : view.page ≤ view.pages) :
    ∃ v, reflow anchors view = .ok v ∧ reflow anchors v = .ok v ∧
      1 ≤ v.page ∧ v.page ≤ anchors.length ∧
      (¬ view.followLatest → view.anchor ∈ anchors.flatten → OnPage anchors v.page view.anchor) ∧
      (∀ action after, navigate anchors view action = .ok after →
        (after.followLatest ↔ after.page = anchors.length)) ∧
      ∀ steps ∈ [(Action.next, Action.previous), (.previous, .next)], ∃ there back,
        navigate anchors view steps.1 = .ok there ∧ navigate anchors there steps.2 = .ok back ∧
        back.page = v.page := by
  have hv := resolved_current h hlow
  have hreflow {v : View} (hv : Current anchors v) : reflow anchors v = .ok v := by
    rw [reflow_eq_ok h hv.low (hv.pages ▸ hv.high), resolved_of_current h hv]
  have hnavigate {v : View} (hv : Current anchors v) := navigate_eq h hv.low (hv.pages ▸ hv.high)
  refine ⟨_, reflow_eq_ok h hlow hhigh, hreflow hv, hv.low, hv.high, fun hfollow hmem => ?_,
    fun action after hafter => ?_, fun steps hsteps => ?_⟩
  · exact resolved_anchor h hfollow hmem ▸ hv.found
  · rw [navigate_eq h hlow hhigh] at hafter
    cases action with
    | latest => exact ok.inj hafter ▸ ⟨fun _ => rfl, fun _ => rfl⟩
    | other => cases hafter
    | previous | next => exact ok.inj hafter ▸ decide_eq_true_iff
  · have hstep (target : Int) := stepTo_current h target
    have hlow := hv.low
    have hhigh := hv.high
    simp only [mem_cons, not_mem_nil, or_false] at hsteps
    rcases hsteps with rfl | rfl
    all_goals
      refine ⟨_, _, navigate_eq h ‹_› ‹_› _, hnavigate (hstep _) _, ?_⟩
      rw [resolved_of_current h (hstep _)]
      simp only [stepTo, viewAt]
      split_ifs <;> omega

/-- The anchor of a page that is now the second. -/
theorem anchor_on_second_page :
    ∃ v, reflow [[ofText "b"], [ofText "a"]] ⟨1, 1, ofText "a", false⟩ = .ok v ∧
      OnPage [[ofText "b"], [ofText "a"]] v.page (ofText "a") := by
  have h : Paginated [[ofText "b"], [ofText "a"]] := validateAnchors_eq_ok.mp rfl
  obtain ⟨v, hv, -, -, -, hpage, -⟩ :=
    navigation_laws h ⟨1, 1, ofText "a", false⟩ (by decide) (by decide)
  exact ⟨v, hv, hpage nofun (by decide)⟩

end Bria.CardPageSelection
