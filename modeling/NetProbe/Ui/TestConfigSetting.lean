import Mathlib.Data.List.InsertIdx
import NetProbe.Lib.LabelledTree
import NetProbe.Lib.Simulation

/-!
# Editing the Test Configuration

The elements of the configuration are shown as a list of rows: a group for an element
with elements in it, followed by these, and an item with a text to edit for any other.
The text field of an item has a watcher that refers to an element, and writes every
text that is typed into that element. A test can be added, as a copy of one of a
template, and deleted; the rows are made anew then. All this is possible only if no
test was running when the screen was opened.

What the user deals with are rows, what the code deals with are references. The editor
that is meant works on the document alone, by the places of the rows. The two agree as
long as each row refers to the element in its place and no other place has the same
element, the template included: the copy that `createCopy` makes is what this rests on.

Elements have a number as their identity here, and writing to an element writes to
every place where it stands. The writing of the file, which is the library's, is left
out, and so are activities that are made anew while a text is edited.

## Main definitions

* `Tag`, `Row`, `TestConfigSetting`: The state of the screen.
* `showTests`, `afterTextChanged`, `step`: What the code does.
* `edit`: The editor that is meant.
* `Consistent`: Each row refers to the element in its place, and to no other.

## Theorems

* `shownRows_edit`: What an edit means for the rows.
* `showTests_eq`: The rows are the outline of the elements.
* `setting_follows`: Each step is a step of the editor that is meant.
* `editor_follows`: Whatever is done, the screen shows the document as it was meant.
-/

namespace NetProbe

open LabelledTree Machine

/-- The name and the text of an element. -/
structure Tag where
  name : String
  text : List Char
  deriving DecidableEq, Repr

def Tag.withText (text : List Char) (tag : Tag) : Tag := { tag with text := text }

/-- A row of the layout; an item has its text field and the element of the watcher. -/
inductive Row where
  | group (name : String)
  | item (name : String) (value : List Char) (element : Nat)
  deriving DecidableEq, Repr

/-- What can be read in a row. -/
def Row.shown : Row → String × Option (List Char)
  | .group name => (name, none)
  | .item name value _ => (name, some value)

/-- The row of an element, which is an item if it has no elements. -/
def Row.of : (Nat × Tag) × Bool → Row
  | (element, true) => .item (element.2.name ++ " :") element.2.text element.1
  | (element, false) => .group element.2.name

/-- The configuration is the elements of its root. `next` is the number that the next
    new element gets. -/
structure TestConfigSetting where
  mIsTestEnd : Bool
  mTestConfig : List (LabelledTree (Nat × Tag))
  mTestConfigTemplate : Option (List (LabelledTree (Nat × Tag)))
  mLayout : List Row
  next : Nat

namespace TestConfigSetting

mutual

/-- What `showTests` adds for one element. -/
def showTest : LabelledTree (Nat × Tag) → List Row
  | node e ts =>
      if ts.isEmpty then [.item (e.2.name ++ " :") e.2.text e.1]
      else .group e.2.name :: showTests ts

/-- `showTests(parent)`, given the elements of `parent`. -/
def showTests : List (LabelledTree (Nat × Tag)) → List Row
  | [] => []
  | t :: ts => showTest t ++ showTests ts

end

/-- An element with another text is the same element. -/
def withText (text : List Char) (e : Nat × Tag) : Nat × Tag := (e.1, e.2.withText text)

/-- `mElement.setText(text)`: the element is written to wherever it stands. -/
def setText (text : List Char) (element : Nat) (ts : List (LabelledTree (Nat × Tag))) :
    List (LabelledTree (Nat × Tag)) :=
  maps (atKey Prod.fst (withText text) element) ts

def afterTextChanged (s : TestConfigSetting) (element : Nat) (text : List Char) :
    TestConfigSetting :=
  { s with
    mTestConfig := setText text element s.mTestConfig
    mTestConfigTemplate := s.mTestConfigTemplate.map (setText text element) }

/-- `onCreate`, with the elements of the file. -/
def onCreate (isEnd : Bool) (file : List (LabelledTree Tag)) : TestConfigSetting where
  mIsTestEnd := isEnd
  mTestConfig := numbers 0 file
  mTestConfigTemplate := none
  mLayout := showTests (numbers 0 file)
  next := (outlines file).length

variable (resource : List (LabelledTree Tag))

/-- The template, which is loaded when the first test is added. -/
def loadTemplate (s : TestConfigSetting) : TestConfigSetting :=
  match s.mTestConfigTemplate with
  | some _ => s
  | none => { s with
      mTestConfigTemplate := some (numbers s.next resource)
      next := s.next + (outlines resource).length }

/-- `removeAllViews` and `showTests`. -/
def showAgain (s : TestConfigSetting) : TestConfigSetting :=
  { s with mLayout := showTests s.mTestConfig }

/-- `add(element.createCopy())`. -/
def addCopy (s : TestConfigSetting) (element : LabelledTree (Nat × Tag)) : TestConfigSetting :=
  { s with
    mTestConfig := s.mTestConfig ++ [number s.next (map Prod.snd element)]
    next := s.next + (outline element).length }

/-- `remove(element)`: the first child that is the same element goes. -/
def removeElement (s : TestConfigSetting) (element : LabelledTree (Nat × Tag)) :
    TestConfigSetting :=
  { s with mTestConfig := s.mTestConfig.eraseP fun t => t.label.1 = element.label.1 }

/-- What a user can do: type into the text field of a row, and choose in one of the
    two dialogs. -/
inductive Action where
  | edit (row : Nat) (text : List Char)
  | add (which : Nat)
  | delete (which : Nat)
  deriving DecidableEq, Repr

def step (s : TestConfigSetting) (action : Action) : Option TestConfigSetting :=
  if s.mIsTestEnd then
    match action with
    | .edit row text =>
        match s.mLayout[row]? with
        | some (.item name _ element) => some
            ({ s with mLayout := s.mLayout.set row (.item name text element) }.afterTextChanged
              element text)
        | _ => none
    | .add which =>
        ((s.loadTemplate resource).mTestConfigTemplate.bind (·[which]?)).map fun element =>
          ((s.loadTemplate resource).addCopy element).showAgain
    | .delete which =>
        s.mTestConfig[which]?.map fun element => (s.removeElement element).showAgain
  else none

/-- The editor that is meant: on the document, by the places of the rows and of the
    tests. -/
def edit (ts : List (LabelledTree Tag)) : Action → Option (List (LabelledTree Tag))
  | .edit row text =>
      if (outlines ts)[row]?.map Prod.snd = some true then
        some (modifiesAt (Tag.withText text) row ts)
      else none
  | .add which => resource[which]?.map fun t => ts ++ [t]
  | .delete which => if which < ts.length then some (ts.eraseIdx which) else none

/-- The document, without the identities of its elements. -/
def document (s : TestConfigSetting) : List (LabelledTree Tag) := maps Prod.snd s.mTestConfig

/-- The rows that belong to a document. -/
def shownRows (ts : List (LabelledTree Tag)) : List (String × Option (List Char)) :=
  (outlines ts).map fun e => if e.2 then (e.1.name ++ " :", some e.1.text) else (e.1.name, none)

/-- In the editor that is meant, a text appears in the row it is typed into and changes
    no other. -/
theorem shownRows_edit {ts ts' : List (LabelledTree Tag)} {row : Nat} {text : List Char}
    (h : edit resource ts (.edit row text) = some ts') :
    ∃ name value, (shownRows ts)[row]? = some (name, some value)
      ∧ shownRows ts' = (shownRows ts).set row (name, some text) := by
  rw [edit] at h
  split at h
  · rename_i hleaf
    obtain ⟨⟨tag, leaf⟩, hplace, hsnd⟩ := Option.map_eq_some_iff.mp hleaf
    obtain rfl : leaf = true := hsnd
    obtain rfl := Option.some.inj h
    refine ⟨tag.name ++ " :", tag.text, ?_, ?_⟩
    · rw [shownRows, List.getElem?_map, hplace]
      rfl
    · rw [shownRows, outlines_modifiesAt ts row hplace, List.map_set]
      rfl
  · exact absurd h (by simp only [reduceCtorEq, not_false_eq_true])

/-! ### Rows and references -/

mutual

theorem showTest_eq : ∀ t, showTest t = (outline t).map Row.of
  | node e ts => by
      rw [showTest, outline, List.map_cons, ← showTests_eq ts]
      cases ts with
      | nil => rfl
      | cons t ts => rfl

/-- The rows are the outline. -/
theorem showTests_eq : ∀ ts, showTests ts = (outlines ts).map Row.of
  | [] => rfl
  | t :: ts => by rw [showTests, outlines, List.map_append, showTest_eq t, showTests_eq ts]

end

/-- The identities of the elements, of the configuration and of the template. -/
def ids (s : TestConfigSetting) : List Nat :=
  (outlines (s.mTestConfig ++ s.mTestConfigTemplate.getD [])).map fun e => e.1.1

/-- The rows are those of the configuration, the template is still the resource, and no
    element stands in two places. -/
structure Consistent (s : TestConfigSetting) : Prop where
  rows : s.mLayout = showTests s.mTestConfig
  template : ∀ ts, s.mTestConfigTemplate = some ts → maps Prod.snd ts = resource
  fresh : ∀ k ∈ s.ids, k < s.next
  nodup : s.ids.Nodup

theorem ids_setText (text : List Char) (element : Nat) (ts : List (LabelledTree (Nat × Tag))) :
    ((outlines (setText text element ts)).map fun e => e.1.1)
      = (outlines ts).map fun e => e.1.1 := by
  rw [setText, outlines_maps, List.map_map]
  refine List.map_congr_left fun e _ => ?_
  show (atKey Prod.fst _ element e.1).1 = e.1.1
  rw [atKey]
  split <;> rfl

theorem outlines_ids (s : TestConfigSetting) :
    s.ids = ((outlines s.mTestConfig).map fun e => e.1.1)
      ++ (outlines (s.mTestConfigTemplate.getD [])).map fun e => e.1.1 := by
  rw [ids, outlines_append, List.map_append]

/-- An item stands for a leaf in its place. -/
theorem leaf_of_item {s : TestConfigSetting} {row element : Nat} {name : String}
    {value : List Char} (hs : s.mLayout = showTests s.mTestConfig)
    (h : s.mLayout[row]? = some (.item name value element)) :
    ∃ tag : Tag, (outlines s.mTestConfig)[row]? = some ((element, tag), true)
      ∧ name = tag.name ++ " :" := by
  rw [hs, showTests_eq, List.getElem?_map] at h
  obtain ⟨⟨⟨k, tag⟩, leaf⟩, hplace, hrow⟩ := Option.map_eq_some_iff.mp h
  cases leaf with
  | false => exact absurd hrow (by simp only [Row.of, reduceCtorEq, not_false_eq_true])
  | true =>
      obtain ⟨hname, -, helement⟩ := Row.item.inj hrow
      exact ⟨tag, by rw [hplace, ← helement], hname.symm⟩

/-- A text that is typed into a row is written to the element in its place. -/
theorem edit_follows {s s' : TestConfigSetting} {row : Nat} {text : List Char}
    (hs : Consistent resource s) (h : s.step resource (.edit row text) = some s') :
    Consistent resource s' ∧ edit resource s.document (.edit row text) = some s'.document := by
  simp only [step] at h
  split at h
  · split at h
    · rename_i name value element hitem
      obtain rfl := Option.some.inj h
      obtain ⟨tag, hplace, hname⟩ := leaf_of_item hs.rows hitem
      have hnodup := hs.nodup
      rw [outlines_ids, List.nodup_append] at hnodup
      obtain ⟨hconfig, -, hdisjoint⟩ := hnodup
      have hmem : element ∈ (outlines s.mTestConfig).map fun e => e.1.1 :=
        List.mem_map.mpr ⟨_, List.mem_of_getElem? hplace, rfl⟩
      have htests : setText text element s.mTestConfig
          = modifiesAt (withText text) row s.mTestConfig :=
        maps_key Prod.fst (withText text) s.mTestConfig row hconfig hplace
      have hdocument : maps Prod.snd (modifiesAt (withText text) row s.mTestConfig)
          = modifiesAt (Tag.withText text) row s.document :=
        maps_modifiesAt (f := withText text) (g := Prod.snd) (fun _ => rfl) s.mTestConfig row
      -- The element does not stand in the template.
      have htemplate :
          s.mTestConfigTemplate.map (setText text element) = s.mTestConfigTemplate := by
        cases heq : s.mTestConfigTemplate with
        | none => rfl
        | some ts =>
            rw [heq] at hdisjoint
            exact congrArg some (maps_atKey_of_notMem Prod.fst _
              (fun hin => hdisjoint element hmem element hin rfl))
      have hids : ({ s with
          mTestConfig := setText text element s.mTestConfig
          mTestConfigTemplate := s.mTestConfigTemplate.map (setText text element)
          mLayout := s.mLayout.set row (.item name text element) } : TestConfigSetting).ids
            = s.ids := by
        rw [outlines_ids, outlines_ids, htemplate, ids_setText]
      refine ⟨⟨?_, fun ts hts => ?_, fun k hk => ?_, ?_⟩, ?_⟩
      · show s.mLayout.set row (.item name text element)
          = showTests (setText text element s.mTestConfig)
        rw [htests, showTests_eq, outlines_modifiesAt _ row hplace, List.map_set, hs.rows,
          showTests_eq, hname]
        rfl
      · exact hs.template ts (htemplate.symm.trans hts)
      · exact hs.fresh k (hids ▸ hk)
      · exact hids ▸ hs.nodup
      · show _ = some (maps Prod.snd (setText text element s.mTestConfig))
        rw [htests, hdocument, edit, document, outlines_maps, List.getElem?_map, hplace]
        exact if_pos rfl
    · exact absurd h (by simp only [reduceCtorEq, not_false_eq_true])
  · exact absurd h (by simp only [reduceCtorEq, not_false_eq_true])

/-- New elements have new numbers. -/
theorem Consistent.extends {s s' : TestConfigSetting} {n : Nat} (hs : Consistent resource s)
    (hids : s'.ids.Perm (s.ids ++ List.range' s.next n)) (hnext : s'.next = s.next + n) :
    (∀ k ∈ s'.ids, k < s'.next) ∧ s'.ids.Nodup := by
  refine ⟨fun k hk => ?_, hids.nodup_iff.mpr (List.nodup_append.mpr
    ⟨hs.nodup, List.nodup_range', fun k hk j hj => ?_⟩)⟩
  · rcases List.mem_append.mp (hids.mem_iff.mp hk) with hk | hk
    · have hlt := hs.fresh k hk
      omega
    · have hlt := (List.mem_range'_1.mp hk).2
      omega
  · have hlt := hs.fresh k hk
    have hge := (List.mem_range'_1.mp hj).1
    omega

/-- Loading the template makes new elements. -/
theorem loadTemplate_consistent {s : TestConfigSetting} (hs : Consistent resource s) :
    Consistent resource (s.loadTemplate resource) := by
  cases htemplate : s.mTestConfigTemplate with
  | some ts =>
      rw [loadTemplate, htemplate]
      exact hs
  | none =>
      have hids : (s.loadTemplate resource).ids
          = s.ids ++ List.range' s.next (outlines resource).length := by
        rw [outlines_ids, outlines_ids, loadTemplate, htemplate, ← keys_numbers]
        exact congrArg (· ++ _) (List.append_nil _).symm
      have hnext : (s.loadTemplate resource).next = s.next + (outlines resource).length := by
        rw [loadTemplate, htemplate]
      obtain ⟨hfresh, hnodup⟩ := hs.extends resource (List.Perm.of_eq hids) hnext
      refine ⟨?_, fun ts hts => ?_, hfresh, hnodup⟩
      · rw [loadTemplate, htemplate]
        exact hs.rows
      · rw [loadTemplate, htemplate] at hts
        rw [← Option.some.inj hts]
        exact maps_numbers resource s.next

theorem addCopy_consistent {s : TestConfigSetting} {element : LabelledTree (Nat × Tag)}
    (hs : Consistent resource s) : Consistent resource (s.addCopy element).showAgain := by
  have hlen : (outline (map Prod.snd element)).length = (outline element).length :=
    length_outline_map Prod.snd element
  have hids : (s.addCopy element).showAgain.ids.Perm
      (s.ids ++ List.range' s.next (outline element).length) := by
    have hcopy : ((outlines [number s.next (map Prod.snd element)]).map fun e => e.1.1)
        = List.range' s.next (outline element).length := by
      rw [outlines, outlines, List.append_nil, keys_number, hlen]
    have hall : (s.addCopy element).showAgain.ids
        = ((outlines s.mTestConfig).map fun e => e.1.1)
          ++ List.range' s.next (outline element).length
          ++ (outlines (s.mTestConfigTemplate.getD [])).map fun e => e.1.1 := by
      rw [outlines_ids]
      show ((outlines (s.mTestConfig ++ [number s.next (map Prod.snd element)])).map
        fun e => e.1.1) ++ _ = _
      rw [outlines_append, List.map_append, hcopy]
      rfl
    rw [hall, outlines_ids, List.append_assoc, List.append_assoc]
    exact List.Perm.append_left _ List.perm_append_comm
  obtain ⟨hfresh, hnodup⟩ := hs.extends resource hids rfl
  exact ⟨rfl, hs.template, hfresh, hnodup⟩

/-- A test that is added is the one of the resource, whatever has been typed before. -/
theorem add_follows {s s' : TestConfigSetting} {which : Nat} (hs : Consistent resource s)
    (h : s.step resource (.add which) = some s') :
    Consistent resource s' ∧ edit resource s.document (.add which) = some s'.document := by
  simp only [step] at h
  split at h
  · obtain ⟨element, helement, rfl⟩ := Option.map_eq_some_iff.mp h
    obtain ⟨ts, hts, hwhich⟩ := Option.bind_eq_some_iff.mp helement
    have hloaded := loadTemplate_consistent resource hs
    refine ⟨addCopy_consistent resource hloaded, ?_⟩
    have hconfig : (s.loadTemplate resource).mTestConfig = s.mTestConfig := by
      rw [loadTemplate]
      split <;> rfl
    have hresource : resource[which]? = some (map Prod.snd element) := by
      rw [← hloaded.template ts hts, maps_eq_map, List.getElem?_map, hwhich]
      rfl
    have hdocument : ((s.loadTemplate resource).addCopy element).showAgain.document
        = s.document ++ [map Prod.snd element] := by
      show maps Prod.snd ((s.loadTemplate resource).mTestConfig ++ [_]) = _
      rw [maps_append, hconfig, maps, maps, map_number]
      rfl
    rw [hdocument, edit, hresource]
    rfl
  · exact absurd h (by simp only [reduceCtorEq, not_false_eq_true])

theorem delete_follows {s s' : TestConfigSetting} {which : Nat} (hs : Consistent resource s)
    (h : s.step resource (.delete which) = some s') :
    Consistent resource s' ∧ edit resource s.document (.delete which) = some s'.document := by
  simp only [step] at h
  split at h
  · obtain ⟨element, hwhich, rfl⟩ := Option.map_eq_some_iff.mp h
    have hnodup := hs.nodup
    rw [outlines_ids, List.nodup_append] at hnodup
    have hremoved : (s.removeElement element).mTestConfig = s.mTestConfig.eraseIdx which :=
      eraseP_key Prod.fst s.mTestConfig which hnodup.1 hwhich
    have hsub : (s.removeElement element).showAgain.ids.Sublist s.ids := by
      refine List.Sublist.map _ (outlines_sublist ?_)
      show ((s.removeElement element).mTestConfig ++ _).Sublist _
      rw [hremoved]
      exact (List.eraseIdx_sublist _ _).append_right _
    refine ⟨⟨rfl, hs.template, fun k hk => hs.fresh k (hsub.subset hk),
      hs.nodup.sublist hsub⟩, ?_⟩
    have hlt : which < s.document.length := by
      rw [document, maps_eq_map, List.length_map]
      exact (List.getElem?_eq_some_iff.mp hwhich).1
    have hdocument : (s.removeElement element).showAgain.document
        = s.document.eraseIdx which := by
      show maps Prod.snd (s.removeElement element).mTestConfig = _
      rw [hremoved, document, maps_eq_map, maps_eq_map, List.eraseIdx_map]
    rw [edit, if_pos hlt, hdocument]
  · exact absurd h (by simp only [reduceCtorEq, not_false_eq_true])

/-- Every step is the step of the editor that is meant. -/
theorem setting_follows :
    Follows (step resource) (edit resource) (Consistent resource) document some where
  keeps := by
    intro s s' action hs h
    cases action with
    | edit row text => exact (edit_follows resource hs h).1
    | add which => exact (add_follows resource hs h).1
    | delete which => exact (delete_follows resource hs h).1
  moves := by
    intro s s' action action' hs h heq
    obtain rfl := Option.some.inj heq
    cases action with
    | edit row text => exact (edit_follows resource hs h).2
    | add which => exact (add_follows resource hs h).2
    | delete which => exact (delete_follows resource hs h).2
  rests := fun _ _ hnone => absurd hnone (Option.some_ne_none _)

theorem onCreate_consistent (isEnd : Bool) (file : List (LabelledTree Tag)) :
    Consistent resource (onCreate isEnd file) := by
  have hids : (onCreate isEnd file).ids = List.range' 0 (outlines file).length := by
    rw [outlines_ids, ← keys_numbers]
    exact List.append_nil _
  refine ⟨rfl, fun ts hts => absurd hts.symm (Option.some_ne_none ts), fun k hk => ?_, ?_⟩
  · rw [hids] at hk
    have hlt := (List.mem_range'_1.mp hk).2
    rw [Nat.zero_add] at hlt
    exact hlt
  · rw [hids]
    exact List.nodup_range'

/-- Whatever a user types, adds and deletes, the configuration is what the editor that is
    meant makes of the file, and the rows are those of the configuration. -/
theorem editor_follows (isEnd : Bool) (file : List (LabelledTree Tag)) (run : List Action)
    (s : TestConfigSetting) (h : exec (step resource) (onCreate isEnd file) run = some s) :
    exec (edit resource) file run = some s.document
      ∧ s.mLayout.map Row.shown = shownRows s.document := by
  have hcreated := onCreate_consistent resource isEnd file
  have hfile : (onCreate isEnd file).document = file := maps_numbers file 0
  have hrun := exec_follows (setting_follows resource) run _ s hcreated h
  have hs := exec_keeps (step resource) (fun _ _ => True) (Consistent resource)
    (fun _ _ _ hs _ hstep => (setting_follows resource).keeps hs hstep) run _ s hcreated
    (along_true _ _ _) h
  rw [List.filterMap_some, hfile] at hrun
  refine ⟨hrun, ?_⟩
  rw [hs.rows, showTests_eq, shownRows, document, outlines_maps, List.map_map, List.map_map]
  refine List.map_congr_left fun e _ => ?_
  obtain ⟨⟨k, tag⟩, leaf⟩ := e
  cases leaf <;> rfl

/-- A test with one field. -/
def voice : LabelledTree Tag := node ⟨"voice", []⟩ [node ⟨"count", "5".toList⟩ []]

/-- Two copies of one test are added, and a text is typed into the first one. -/
theorem editor_follows_two_copies :
    ∃ s ∈ exec (step [voice]) (onCreate true []) [.add 0, .add 0, .edit 1 "7".toList],
      exec (edit [voice]) [] [.add 0, .add 0, .edit 1 "7".toList] = some s.document
        ∧ s.mLayout.map Row.shown = shownRows s.document := by
  have hsome : (exec (step [voice]) (onCreate true [])
      [.add 0, .add 0, .edit 1 "7".toList]).isSome := by
    decide +kernel
  obtain ⟨s, hs⟩ := Option.isSome_iff_exists.mp hsome
  exact ⟨s, hs, editor_follows [voice] true [] _ s hs⟩

end TestConfigSetting

end NetProbe
