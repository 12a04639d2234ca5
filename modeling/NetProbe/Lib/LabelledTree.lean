import Mathlib.Data.List.Nodup

/-!
# Trees with Labels

A tree whose nodes carry labels and have any number of children, such as a document
and its elements. Looked at from the outside it is a list: `outline` has the labels
in preorder, each with whether its node is a leaf. The place in that list is how a
user refers to a node, and `modifyAt` changes the node at a place.

A program refers to a node by a key in its label. What it does to the node with a key
is done to every node with that key, wherever it is, so the two ways agree only where
keys are not shared. `maps_key` says that they do then. `numbers` labels the nodes of a
copy with keys that are not in use yet.

## Main definitions

* `LabelledTree`: A label and a list of trees.
* `outline`, `map`, `modifyAt`, `number`: For a tree, and `outlines`, `maps`,
  `modifiesAt`, `numbers` for a list of trees.

## Theorems

* `outlines_append`, `outlines_maps`, `maps_maps`: How they compose.
* `maps_key`, `eraseP_key`: Changing the node with a key is changing the node at its
  place, and so is removing a tree.
* `outlines_modifiesAt`, `maps_modifiesAt`: A change at a place.
* `maps_numbers`, `keys_numbers`: What numbering does.
-/

namespace NetProbe

/-- A label and the trees below it. -/
inductive LabelledTree (α : Type) where
  | node (label : α) (children : List (LabelledTree α))
  deriving Repr

namespace LabelledTree

variable {α β γ : Type}

/-- The label of the root. -/
def label : LabelledTree α → α
  | node a _ => a

mutual

/-- The labels in preorder, and which of the nodes are leaves. -/
def outline : LabelledTree α → List (α × Bool)
  | node a ts => (a, ts.isEmpty) :: outlines ts

def outlines : List (LabelledTree α) → List (α × Bool)
  | [] => []
  | t :: ts => outline t ++ outlines ts

end

mutual

def map (f : α → β) : LabelledTree α → LabelledTree β
  | node a ts => node (f a) (maps f ts)

def maps (f : α → β) : List (LabelledTree α) → List (LabelledTree β)
  | [] => []
  | t :: ts => map f t :: maps f ts

end

mutual

/-- Change the label at a place of the outline. -/
def modifyAt (f : α → α) : Nat → LabelledTree α → LabelledTree α
  | 0, node a ts => node (f a) ts
  | i + 1, node a ts => node a (modifiesAt f i ts)

def modifiesAt (f : α → α) : Nat → List (LabelledTree α) → List (LabelledTree α)
  | _, [] => []
  | i, t :: ts =>
      if i < (outline t).length then modifyAt f i t :: ts
      else t :: modifiesAt f (i - (outline t).length) ts

end

mutual

/-- Number the nodes in preorder, from `n` on. -/
def number (n : Nat) : LabelledTree α → LabelledTree (Nat × α)
  | node a ts => node (n, a) (numbers (n + 1) ts)

def numbers (n : Nat) : List (LabelledTree α) → List (LabelledTree (Nat × α))
  | [] => []
  | t :: ts => number n t :: numbers (n + (outline t).length) ts

end

theorem outlines_append (ts us : List (LabelledTree α)) :
    outlines (ts ++ us) = outlines ts ++ outlines us := by
  induction ts with
  | nil => rfl
  | cons t ts ih => rw [List.cons_append, outlines, outlines, ih, List.append_assoc]

/-- Fewer trees have fewer nodes. -/
theorem outlines_sublist {ts us : List (LabelledTree α)} (h : ts.Sublist us) :
    (outlines ts).Sublist (outlines us) := by
  induction h with
  | slnil => exact List.Sublist.refl _
  | cons t _ ih => exact ih.trans (List.sublist_append_right (outline t) _)
  | cons_cons t _ ih => exact ih.append_left (outline t)

theorem outline_subset {t : LabelledTree α} {ts : List (LabelledTree α)} (h : t ∈ ts) :
    outline t ⊆ outlines ts := by
  have hsub := outlines_sublist (List.singleton_sublist.mpr h)
  rw [outlines, outlines, List.append_nil] at hsub
  exact hsub.subset

theorem maps_append (f : α → β) (ts us : List (LabelledTree α)) :
    maps f (ts ++ us) = maps f ts ++ maps f us := by
  induction ts with
  | nil => rfl
  | cons t ts ih => rw [List.cons_append, maps, maps, ih, List.cons_append]

theorem maps_eq_map (f : α → β) (ts : List (LabelledTree α)) : maps f ts = ts.map (map f) := by
  induction ts with
  | nil => rfl
  | cons t ts ih => rw [maps, ih, List.map_cons]

mutual

theorem outline_map (f : α → β) :
    ∀ t : LabelledTree α, outline (map f t) = (outline t).map fun e => (f e.1, e.2)
  | node a ts => by
      have hempty : (maps f ts).isEmpty = ts.isEmpty := by cases ts <;> rfl
      rw [map, outline, outline, List.map_cons, outlines_maps f ts, hempty]

theorem outlines_maps (f : α → β) :
    ∀ ts : List (LabelledTree α), outlines (maps f ts) = (outlines ts).map fun e => (f e.1, e.2)
  | [] => rfl
  | t :: ts => by
      rw [maps, outlines, outlines, List.map_append, outline_map f t, outlines_maps f ts]

end

mutual

theorem map_map (f : α → β) (g : β → γ) :
    ∀ t : LabelledTree α, map g (map f t) = map (fun a => g (f a)) t
  | node a ts => by rw [map, map, map, maps_maps f g ts]

theorem maps_maps (f : α → β) (g : β → γ) :
    ∀ ts : List (LabelledTree α), maps g (maps f ts) = maps (fun a => g (f a)) ts
  | [] => rfl
  | t :: ts => by rw [maps, maps, maps, map_map f g t, maps_maps f g ts]

end

mutual

theorem map_eq_self {f : α → α} :
    ∀ t : LabelledTree α, (∀ e ∈ outline t, f e.1 = e.1) → map f t = t
  | node a ts => fun h => by
      rw [outline, List.forall_mem_cons] at h
      rw [map, h.1, maps_eq_self ts h.2]

/-- A map that leaves the labels that occur as they are does nothing. -/
theorem maps_eq_self {f : α → α} :
    ∀ ts : List (LabelledTree α), (∀ e ∈ outlines ts, f e.1 = e.1) → maps f ts = ts
  | [] => fun _ => rfl
  | t :: ts => fun h => by
      rw [outlines, List.forall_mem_append] at h
      rw [maps, map_eq_self t h.1, maps_eq_self ts h.2]

end

section Keys

variable {κ : Type} [DecidableEq κ] (key : α → κ) (f : α → α)

/-- A label is changed if it has the key. -/
def atKey (k : κ) (a : α) : α := if key a = k then f a else a

theorem atKey_of_ne {k : κ} {a : α} (h : key a ≠ k) : atKey key f k a = a := if_neg h

theorem atKey_self (a : α) : atKey key f (key a) a = f a := if_pos rfl

/-- Where a key does not occur nothing is changed. -/
theorem maps_atKey_of_notMem {k : κ} {ts : List (LabelledTree α)}
    (h : k ∉ (outlines ts).map fun e => key e.1) : maps (atKey key f k) ts = ts :=
  maps_eq_self ts fun e he =>
    atKey_of_ne key f fun heq => h (List.mem_map.mpr ⟨e, he, heq⟩)

mutual

theorem map_key {a : α} {leaf : Bool} : ∀ (t : LabelledTree α) (i : Nat),
    ((outline t).map fun e => key e.1).Nodup → (outline t)[i]? = some (a, leaf) →
      map (atKey key f (key a)) t = modifyAt f i t
  | node c ts, 0 => fun hnodup hi => by
      rw [outline, List.map_cons, List.nodup_cons] at hnodup
      rw [outline, List.getElem?_cons_zero, Option.some.injEq, Prod.mk.injEq] at hi
      rw [map, modifyAt, ← hi.1, atKey_self, maps_atKey_of_notMem key f hnodup.1]
  | node c ts, i + 1 => fun hnodup hi => by
      rw [outline, List.map_cons, List.nodup_cons] at hnodup
      rw [outline, List.getElem?_cons_succ] at hi
      -- The key belongs to a node below.
      have hne : key c ≠ key a := fun heq =>
        hnodup.1 (List.mem_map.mpr ⟨(a, leaf), List.mem_of_getElem? hi, heq.symm⟩)
      rw [map, modifyAt, atKey_of_ne key f hne, maps_key ts i hnodup.2 hi]

/-- If no two labels have the same key, the node with a key is the one at its place. -/
theorem maps_key {a : α} {leaf : Bool} : ∀ (ts : List (LabelledTree α)) (i : Nat),
    ((outlines ts).map fun e => key e.1).Nodup → (outlines ts)[i]? = some (a, leaf) →
      maps (atKey key f (key a)) ts = modifiesAt f i ts
  | [], _ => fun _ hi => absurd hi (by
      simp only [outlines, List.getElem?_nil, reduceCtorEq, not_false_eq_true])
  | t :: ts, i => fun hnodup hi => by
      rw [outlines, List.map_append, List.nodup_append] at hnodup
      obtain ⟨hfirst, hrest, hdisjoint⟩ := hnodup
      rw [outlines] at hi
      rw [maps, modifiesAt]
      split
      · rename_i hlt
        rw [List.getElem?_append_left hlt] at hi
        have hmem : key a ∈ (outline t).map fun e => key e.1 :=
          List.mem_map.mpr ⟨(a, leaf), List.mem_of_getElem? hi, rfl⟩
        rw [map_key t i hfirst hi,
          maps_atKey_of_notMem key f (fun h => hdisjoint _ hmem _ h rfl)]
      · rename_i hge
        rw [List.getElem?_append_right (Nat.le_of_not_lt hge)] at hi
        have hmem : key a ∈ (outlines ts).map fun e => key e.1 :=
          List.mem_map.mpr ⟨(a, leaf), List.mem_of_getElem? hi, rfl⟩
        have hnone : ∀ e ∈ outline t, atKey key f (key a) e.1 = e.1 := fun e he =>
          atKey_of_ne key f fun heq =>
            hdisjoint _ (List.mem_map.mpr ⟨e, he, rfl⟩) _ hmem heq
        rw [map_eq_self t hnone, maps_key ts _ hrest hi]

end

theorem label_mem_outline : ∀ t : LabelledTree α, ∃ leaf, (t.label, leaf) ∈ outline t
  | node _ ts => ⟨ts.isEmpty, List.mem_cons_self⟩

/-- If no two labels have the same key, the first tree with a key at its root is the one
    in its place. -/
theorem eraseP_key {t : LabelledTree α} : ∀ (ts : List (LabelledTree α)) (i : Nat),
    ((outlines ts).map fun e => key e.1).Nodup → ts[i]? = some t →
      ts.eraseP (fun u => key u.label = key t.label) = ts.eraseIdx i
  | [], _ => fun _ _ => rfl
  | u :: us, 0 => fun _ hi => by
      rw [List.getElem?_cons_zero, Option.some.injEq] at hi
      rw [List.eraseP_cons_of_pos (by rw [hi, decide_eq_true_eq]), List.eraseIdx_cons_zero]
  | u :: us, i + 1 => fun hnodup hi => by
      rw [outlines, List.map_append, List.nodup_append] at hnodup
      obtain ⟨-, hrest, hdisjoint⟩ := hnodup
      rw [List.getElem?_cons_succ] at hi
      obtain ⟨leaf, hu⟩ := label_mem_outline u
      obtain ⟨leaf', ht⟩ := label_mem_outline t
      have hne : key u.label ≠ key t.label :=
        hdisjoint _ (List.mem_map.mpr ⟨_, hu, rfl⟩) _
          (List.mem_map.mpr ⟨_, outline_subset (List.mem_of_getElem? hi) ht, rfl⟩)
      rw [List.eraseP_cons_of_neg (by rwa [decide_eq_true_eq]), eraseP_key us i hrest hi,
        List.eraseIdx_cons_succ]

end Keys

section Places

variable {f : α → α} {f' : β → β} {g : α → β}

theorem length_outline_map (g : α → β) (t : LabelledTree α) :
    (outline (map g t)).length = (outline t).length := by
  rw [outline_map, List.length_map]

mutual

theorem map_modifyAt (h : ∀ a, g (f a) = f' (g a)) :
    ∀ (t : LabelledTree α) (i : Nat), map g (modifyAt f i t) = modifyAt f' i (map g t)
  | node a ts, 0 => by rw [modifyAt, map, map, modifyAt, h]
  | node a ts, i + 1 => by rw [modifyAt, map, map, modifyAt, maps_modifiesAt h ts i]

/-- A change that a map carries over can be made before or after it. -/
theorem maps_modifiesAt (h : ∀ a, g (f a) = f' (g a)) :
    ∀ (ts : List (LabelledTree α)) (i : Nat),
      maps g (modifiesAt f i ts) = modifiesAt f' i (maps g ts)
  | [], _ => by rw [modifiesAt, maps, modifiesAt]
  | t :: ts, i => by
      rw [modifiesAt, maps, modifiesAt, length_outline_map]
      split
      · rw [maps, map_modifyAt h t i]
      · rw [maps, maps_modifiesAt h ts _]

end

end Places

mutual

theorem outline_modifyAt {f : α → α} {a : α} {leaf : Bool} :
    ∀ (t : LabelledTree α) (i : Nat), (outline t)[i]? = some (a, leaf) →
      outline (modifyAt f i t) = (outline t).set i (f a, leaf)
  | node c ts, 0 => fun h => by
      rw [outline, List.getElem?_cons_zero, Option.some.injEq, Prod.mk.injEq] at h
      rw [modifyAt, outline, outline, List.set_cons_zero, h.1, h.2]
  | node c ts, i + 1 => fun h => by
      rw [outline, List.getElem?_cons_succ] at h
      have hempty : (modifiesAt f i ts).isEmpty = ts.isEmpty := by
        cases ts with
        | nil => rfl
        | cons t ts =>
            rw [modifiesAt]
            split <;> rfl
      rw [modifyAt, outline, outline, List.set_cons_succ, outlines_modifiesAt ts i h, hempty]

/-- A change at a place is seen there and nowhere else. -/
theorem outlines_modifiesAt {f : α → α} {a : α} {leaf : Bool} :
    ∀ (ts : List (LabelledTree α)) (i : Nat), (outlines ts)[i]? = some (a, leaf) →
      outlines (modifiesAt f i ts) = (outlines ts).set i (f a, leaf)
  | [], _ => fun h => absurd h (by
      simp only [outlines, List.getElem?_nil, reduceCtorEq, not_false_eq_true])
  | t :: ts, i => fun h => by
      rw [outlines] at h
      rw [modifiesAt, outlines, List.set_append]
      split
      · rename_i hlt
        rw [List.getElem?_append_left hlt] at h
        rw [outlines, outline_modifyAt t i h]
      · rename_i hge
        rw [List.getElem?_append_right (Nat.le_of_not_lt hge)] at h
        rw [outlines, outlines_modifiesAt ts _ h]

end

mutual

theorem map_number : ∀ (t : LabelledTree α) (n : Nat), map Prod.snd (number n t) = t
  | node a ts, n => by rw [number, map, maps_numbers ts (n + 1)]

/-- Numbering leaves the labels as they are. -/
theorem maps_numbers : ∀ (ts : List (LabelledTree α)) (n : Nat), maps Prod.snd (numbers n ts) = ts
  | [], _ => rfl
  | t :: ts, n => by rw [numbers, maps, map_number t n, maps_numbers ts _]

end

mutual

theorem keys_number : ∀ (t : LabelledTree α) (n : Nat),
    ((outline (number n t)).map fun e => e.1.1) = List.range' n (outline t).length
  | node a ts, n => by
      rw [number, outline, outline, List.map_cons, keys_numbers ts (n + 1), List.length_cons,
        List.range'_succ]

/-- The numbers are the next ones. -/
theorem keys_numbers : ∀ (ts : List (LabelledTree α)) (n : Nat),
    ((outlines (numbers n ts)).map fun e => e.1.1) = List.range' n (outlines ts).length
  | [], _ => rfl
  | t :: ts, n => by
      rw [numbers, outlines, outlines, List.map_append, keys_number t n, keys_numbers ts _,
        List.length_append, List.range'_append_1]

end

end LabelledTree

end NetProbe
