/-
Automation/Proofs/Loop/Listing.lean

Loops over items that are listed in a text.

A listing holds items with commas between them, each with any white space around it.  A loop that
trims its sources takes it apart again: it goes through the items as if they were given as a list
(`elements?_listing`), so that the loop has the same plan, whatever its settings are and whatever
its other sources (`make_of_listings`).  There is one listing that it takes for something else: the
empty text lists no item, and the loop finds an empty item in it (`count_of_empty_listing`).
-/
import Automation.Proofs.Loop.Delivery
import Automation.Proofs.Text.Blank
import Automation.Proofs.Value.Path

namespace Automation.Loop

open Automation.Text

/-! ### Listings -/

/-- An item as it stands in a listing. -/
structure Listed where
  /-- The white space in front of it. -/
  front : List Char
  item : String
  /-- The white space behind it. -/
  back : List Char
  front_blank : ∀ c ∈ front, isBlank c = true
  back_blank : ∀ c ∈ back, isBlank c = true
  item_ne : item ≠ ""
  item_trimmed : strip item = item
  comma_not_mem : ',' ∉ item.toList

namespace Listed

/-- An item with its white space. -/
def chars (l : Listed) : List Char := l.front ++ l.item.toList ++ l.back

theorem comma_not_mem_chars (l : Listed) : ',' ∉ l.chars := by
  have hcomma : isBlank ',' = false := by decide
  intro hmem
  rcases List.mem_append.mp hmem with hmem | hback
  · rcases List.mem_append.mp hmem with hfront | hitem
    · exact absurd (l.front_blank _ hfront) (by simp [hcomma])
    · exact l.comma_not_mem hitem
  · exact absurd (l.back_blank _ hback) (by simp [hcomma])

/-- Trimming leaves the item. -/
theorem stripChars_chars (l : Listed) : stripChars l.chars = l.item.toList := by
  obtain ⟨hhead, hlast⟩ := stripChars_eq_self_iff.mp (strip_eq_self_iff.mp l.item_trimmed)
  have hne : l.item.toList ≠ [] := fun hnil => l.item_ne (String.toList_eq_nil_iff.mp hnil)
  exact stripChars_around l.front_blank l.back_blank hne hhead hlast

end Listed

/-- Items with commas between them. -/
def listing (ls : List Listed) : String :=
  String.ofList ([','].intercalate (ls.map Listed.chars))

/-- The items of a listing as values. -/
def listedItems (ls : List Listed) : List Value := ls.map fun l => .text l.item

namespace Plan

/-- Where something is listed, the items of the listing are the elements of the source. -/
theorem elements?_listing {ls : List Listed} (h : ls ≠ []) :
    elements? true (.text (listing ls)) = some (listedItems ls) := by
  have hcut : cut ',' (listing ls).toList = ls.map Listed.chars := by
    rw [listing, String.toList_ofList]
    apply List.splitOn_intercalate
    · simpa using fun l _ => l.comma_not_mem_chars
    · simpa using h
  show some (((cut ',' (listing ls).toList).map stripChars).map fun p =>
    Value.text (String.ofList p)) = _
  rw [hcut, List.map_map, List.map_map]
  apply congrArg some
  refine List.map_congr_left fun l _ => ?_
  show Value.text (String.ofList (stripChars l.chars)) = .text l.item
  rw [l.stripChars_chars, String.ofList_toList]

/-- Where nothing is listed, one element is found all the same. -/
theorem elements?_listing_nil : elements? true (.text (listing [])) = some [.text ""] :=
  rfl

/-- As sources of a loop the values are the same: they are equal, or the one lists some items and
the other is the list of them. -/
inductive SameSource : Value → Value → Prop
  | refl (x : Value) : SameSource x x
  | listing {ls : List Listed} (some : ls ≠ []) :
      SameSource (.text (listing ls)) (.list (listedItems ls))

theorem SameSource.elements?_eq {x y : Value} (h : SameSource x y) :
    elements? true x = elements? true y := by
  cases h with
  | refl => rfl
  | listing hsome => exact elements?_listing hsome

variable {settings : Settings} {view other : View} {v : Variable}

theorem source?_eq {trims : Bool} {x : Value} (hsource : v.hasSource = true)
    (hvalue : sourceValue view v = .ok x) : source? trims view v = .ok (elements? trims x) := by
  unfold source?
  rw [if_pos hsource, hvalue]
  rfl

/-- What stands at the source of a variable in two views is the same source. -/
def ReadsSame (view other : View) (v : Variable) : Prop :=
  sourceValue view v = sourceValue other v ∨
    ∃ x y, sourceValue view v = .ok x ∧ sourceValue other v = .ok y ∧ SameSource x y

theorem source?_eq_of_readsSame (h : v.hasSource = true → ReadsSame view other v) :
    source? true view v = source? true other v := by
  by_cases hsource : v.hasSource = true
  · rcases h hsource with heq | ⟨x, y, hx, hy, hsame⟩
    · rw [source?, source?, heq]
    · rw [source?_eq hsource hx, source?_eq hsource hy, hsame.elements?_eq]
  · rw [source?, source?, if_neg hsource, if_neg hsource]

theorem collect_eq_of_readsSame {vars : List Variable}
    (h : ∀ v ∈ vars, v.hasSource = true → ReadsSame view other v) :
    collect true view vars = collect true other vars := by
  induction vars with
  | nil => rfl
  | cons v vars ih =>
    obtain ⟨hv, hvars⟩ := List.forall_mem_cons.mp h
    rw [collect, collect, source?_eq_of_readsSame hv, ih hvars]

/-- A loop that trims its sources has the same plan, and so the same number of iterations and the
same bindings in each of them, whether items are listed in a text or given as a list; and the plan
goes through the items. -/
theorem make_of_listings (loop : String) (htrims : settings.trims = true)
    (h : ∀ v ∈ settings.vars, v.hasSource = true → ReadsSame view other v) :
    make loop settings view = make loop settings other ∧
      ∀ plan, make loop settings view = .ok plan → ∀ v ∈ settings.vars, v.hasSource = true →
        ∀ ls, ls ≠ [] → sourceValue view v = .ok (.text (listing ls)) →
          (v, listedItems ls) ∈ plan.sources := by
  constructor
  · unfold make
    rw [htrims, collect_eq_of_readsSame h]
  · intro plan hplan v hv hsource ls hls hvalue
    have husable : usable? true view v = some (v, listedItems ls) := by
      simp only [usable?, source?_eq hsource hvalue, elements?_listing hls]
    rw [(sources_eq hplan).2, htrims]
    exact List.mem_filterMap.mpr ⟨v, hv, husable⟩

/-- Three ships with white space around them. -/
def fleet : List Listed :=
  [⟨[' '], "Aurora", [' '], List.all_eq_true.mp rfl, List.all_eq_true.mp rfl, by decide,
      by decide, by decide⟩,
    ⟨['\n', ' '], "Beagle II", [], List.all_eq_true.mp rfl, List.forall_mem_nil _, by decide,
      by decide, by decide⟩,
    ⟨[], "Calypso", ['\t'], List.forall_mem_nil _, List.all_eq_true.mp rfl, by decide,
      by decide, by decide⟩]

/-- The ships are listed in a text, and their ports are a list in any case. -/
theorem make_of_listings_of_fleet :
    let ship : Variable := ⟨"s", "ship", "harbour", "ships"⟩
    let port : Variable := ⟨"p", "port", "harbour", "ports"⟩
    let settings : Settings := ⟨[ship, port], 10, 1, 0, false, .text "s", true, true, 2⟩
    let ports : Value := .list [.text "Kiel", .null]
    let bare : View := .bare ⟨"run", .null, ⟨"", 0⟩⟩
    let view := bare.write "harbour"
      (.object [("ships", .text " Aurora ,\n Beagle II,Calypso\t"), ("ports", ports)])
    let other := bare.write "harbour"
      (.object [("ships", .list [.text "Aurora", .text "Beagle II", .text "Calypso"]),
        ("ports", ports)])
    make "loop" settings view = make "loop" settings other ∧
      ∀ plan, make "loop" settings view = .ok plan → (ship, listedItems fleet) ∈ plan.sources := by
  intro ship port settings ports bare view other
  have hlisting : listing fleet = " Aurora ,\n Beagle II,Calypso\t" := by decide
  have hsome : fleet ≠ [] := nofun
  have htext : sourceValue view ship = .ok (.text (listing fleet)) := by
    rw [hlisting]
    exact Value.at_name (by decide) _
  have hlist : sourceValue other ship = .ok (.list (listedItems fleet)) :=
    Value.at_name (by decide) _
  have hports : sourceValue view port = .ok ports := Value.at_name (by decide) _
  have hports' : sourceValue other port = .ok ports := Value.at_name (by decide) _
  have hreads : ∀ v ∈ settings.vars, v.hasSource = true → ReadsSame view other v := by
    refine List.forall_mem_cons.mpr ⟨fun _ => .inr ?_, List.forall_mem_singleton.mpr fun _ => ?_⟩
    · exact ⟨_, _, htext, hlist, .listing hsome⟩
    · exact .inl (hports.trans hports'.symm)
  obtain ⟨hmake, hsources⟩ := make_of_listings "loop" rfl hreads
  refine ⟨hmake, fun plan hplan => ?_⟩
  exact hsources plan hplan ship List.mem_cons_self rfl fleet hsome htext

/-! ### The empty listing -/

/-- A loop with one variable whose source has these elements. -/
theorem make_of_sole {loop : String} {xs : List Value} (hvars : settings.vars = [v])
    (hsource : v.hasSource = true) {x : Value} (hvalue : sourceValue view v = .ok x)
    (hxs : elements? settings.trims x = some xs) :
    make loop settings view = .ok ⟨loop, settings, [(v, xs)]⟩ := by
  have hfound : source? settings.trims view v = .ok (some xs) := by
    rw [source?_eq hsource hvalue, hxs]
  unfold make
  rw [hvars, collect, hfound, collect]
  rfl

theorem Decides.exists_mem {plan : Plan} {xs : List Value} (h : plan.Decides xs) :
    ∃ v, (v, xs) ∈ plan.sources := by
  cases h with
  | @linked before after v xs hsources =>
    rw [hsources]
    exact ⟨v, List.mem_append_right before List.mem_cons_self⟩
  | @longest v xs hmem => exact ⟨v, hmem⟩

/-- The only source of a loop decides how often it runs. -/
theorem count_of_sole (loop : String) (hvars : settings.vars ≠ []) (v : Variable)
    (xs : List Value) :
    (Plan.mk loop settings [(v, xs)]).count = min settings.maxIterations xs.length := by
  have hne : (Plan.mk loop settings [(v, xs)]).sources ≠ [] := nofun
  obtain ⟨ys, hdecides⟩ := exists_decides hne
  obtain ⟨w, hmem⟩ := hdecides.exists_mem
  have hys : ys = xs := (Prod.mk.inj (List.mem_singleton.mp hmem)).2
  rw [count_eq hvars hdecides, hys]

/-- Over the text that lists nothing a loop runs once, and over the empty list not at all. -/
theorem count_of_empty_listing (loop : String) (htrims : settings.trims = true)
    (hvars : settings.vars = [v]) (hsource : v.hasSource = true)
    (htext : sourceValue view v = .ok (.text (listing [])))
    (hlist : sourceValue other v = .ok (.list (listedItems []))) :
    ∃ plan plan', make loop settings view = .ok plan ∧ make loop settings other = .ok plan' ∧
      plan.count = min settings.maxIterations 1 ∧ plan'.count = 0 := by
  have hne : settings.vars ≠ [] := by simp [hvars]
  have hfound : elements? settings.trims (.text (listing [])) = some [.text ""] := by
    rw [htrims]
    exact elements?_listing_nil
  refine ⟨_, _, make_of_sole hvars hsource htext hfound, make_of_sole hvars hsource hlist rfl,
    count_of_sole loop hne v [.text ""], ?_⟩
  exact (count_of_sole loop hne v []).trans (Nat.min_zero _)

end Plan

end Automation.Loop
