import Mathlib.Data.List.Sort
import Mathlib.Data.List.Nodup

/-!
# CloudProfiler.Dict

Dictionaries that keep the order of insertion, as Python has them (library
layer, nothing here mentions the profiler).  A dictionary is the list of its
items; that no key occurs twice is part of the structure.

* `get?`, `set`, `del`, `popFirst`, `sortBy` — the operations, with
  `get?_set` and `mem_keys_set` for what they leave unchanged;
* `append` — `d.setdefault(k, []).append(v)`, and `get?_foldl_append` for a
  loop of it; `mem_flatten_values_append` for what is stored under any key;
* `group` — a list grouped by key.
-/

namespace CloudProfiler

/-- Lists of pairs are equal if their components are. -/
theorem pairs_ext {α β : Type} {l l' : List (α × β)} (h₁ : l.map Prod.fst = l'.map Prod.fst)
    (h₂ : l.map Prod.snd = l'.map Prod.snd) : l = l' := by
  rw [← List.zip_unzip l, ← List.zip_unzip l', List.unzip_eq_map, List.unzip_eq_map, h₁, h₂]

/-- A Python `dict`. -/
structure Dict (K V : Type) where
  items : List (K × V)
  nodup : (items.map Prod.fst).Nodup

namespace Dict

variable {K V W : Type}

/-- `dict()`. -/
def empty : Dict K V := ⟨[], List.nodup_nil⟩

/-- `d.keys()`. -/
def keys (d : Dict K V) : List K := d.items.map Prod.fst

/-- The values replaced, key by key. -/
def mapValues (f : V → W) (d : Dict K V) : Dict K W where
  items := d.items.map fun e => (e.1, f e.2)
  nodup := by simpa [Function.comp_def] using d.nodup

/-- `sorted(d.items(), key=key)` as a dictionary: a stable sort. -/
def sortBy (key : K × V → Int) (d : Dict K V) : Dict K V where
  items := d.items.insertionSort (key · ≤ key ·)
  nodup := ((List.perm_insertionSort _ d.items).map Prod.fst).nodup_iff.mpr d.nodup

/-- `d.popitem(False)`: the first item, and what is left. -/
def popFirst (d : Dict K V) : Option ((K × V) × Dict K V) :=
  match h : d.items with
  | [] => none
  | e :: rest => some (e, ⟨rest, by
      have := d.nodup
      rw [h, List.map_cons] at this
      exact this.of_cons⟩)

theorem mem_items_sortBy {key : K × V → Int} {d : Dict K V} {e : K × V} :
    e ∈ (d.sortBy key).items ↔ e ∈ d.items :=
  (List.perm_insertionSort _ d.items).mem_iff

theorem popFirst_eq_some {d rest : Dict K V} {e : K × V} (h : d.popFirst = some (e, rest)) :
    d.items = e :: rest.items := by
  unfold popFirst at h
  split at h
  · cases h
  · next e' l hl =>
    cases h
    exact hl

theorem exists_popFirst {d : Dict K V} (h : d.items ≠ []) : ∃ x, d.popFirst = some x := by
  unfold popFirst
  split
  · next hnil => exact absurd hnil h
  · exact ⟨_, rfl⟩

variable [DecidableEq K]

/-- `d.get(k)`. -/
def get? (d : Dict K V) (k : K) : Option V := (d.items.find? (·.1 = k)).map Prod.snd

/-- Replace the value of a key that is there, or add the key at the end. -/
def setItems (k : K) (v : V) : List (K × V) → List (K × V)
  | [] => [(k, v)]
  | e :: l => if e.1 = k then (k, v) :: l else e :: setItems k v l

theorem keys_setItems (l : List (K × V)) (k : K) (v : V) :
    (setItems k v l).map Prod.fst =
      if k ∈ l.map Prod.fst then l.map Prod.fst else l.map Prod.fst ++ [k] := by
  induction l with
  | nil => rfl
  | cons e l ih =>
      by_cases he : e.1 = k
      · simp [setItems, he]
      · have hne : k ≠ e.1 := Ne.symm he
        rw [setItems, if_neg he, List.map_cons, ih]
        by_cases hk : k ∈ l.map Prod.fst <;> simp [hk, hne]

/-- `d[k] = v`. -/
def set (d : Dict K V) (k : K) (v : V) : Dict K V where
  items := setItems k v d.items
  nodup := by
    rw [keys_setItems]
    split
    · exact d.nodup
    · next h => exact List.nodup_append.mpr ⟨d.nodup, List.nodup_singleton k, fun a ha b hb =>
        List.mem_singleton.mp hb ▸ fun he => h (he ▸ ha)⟩

/-- `del d[k]`, if the key is there. -/
def del (d : Dict K V) (k : K) : Dict K V where
  items := d.items.filter (·.1 ≠ k)
  nodup := d.nodup.sublist (List.filter_sublist.map Prod.fst)

/-- `d.setdefault(k, []).append(v)`. -/
def append (d : Dict K (List V)) (k : K) (v : V) : Dict K (List V) :=
  d.set k ((d.get? k).getD [] ++ [v])

/-! ## what the operations do -/

@[simp] theorem get?_empty (k : K) : (empty : Dict K V).get? k = none := rfl

theorem get?_eq_none {d : Dict K V} {k : K} : d.get? k = none ↔ k ∉ d.keys := by
  simp [get?, keys]
  grind

theorem mem_items_of_get? {d : Dict K V} {k : K} {v : V} (h : d.get? k = some v) :
    (k, v) ∈ d.items := by
  obtain ⟨e, he, rfl⟩ := Option.map_eq_some_iff.mp h
  have hk : e.1 = k := by simpa using List.find?_some he
  rw [← hk]
  exact List.mem_of_find?_eq_some he

/-- The value of a key is the one of its item. -/
theorem get?_of_mem {d : Dict K V} {e : K × V} (h : e ∈ d.items) : d.get? e.1 = some e.2 := by
  have hnodup := d.nodup
  unfold get?
  generalize d.items = l at h hnodup
  induction l with
  | nil => cases h
  | cons e' l ih =>
      rw [List.map_cons, List.nodup_cons] at hnodup
      obtain rfl | h := List.mem_cons.mp h
      · simp
      · have hne : e'.1 ≠ e.1 := fun he => hnodup.1 (he ▸ List.mem_map_of_mem h)
        rw [List.find?_cons_of_neg (by simpa using hne)]
        exact ih h hnodup.2

/-- Dictionaries with the same items have the same values. -/
theorem get?_congr {d d' : Dict K V} (h : ∀ e, e ∈ d'.items ↔ e ∈ d.items) (k : K) :
    d'.get? k = d.get? k := by
  cases hk : d.get? k with
  | some v => exact get?_of_mem ((h (k, v)).mpr (mem_items_of_get? hk))
  | none =>
      refine get?_eq_none.mpr fun hmem => get?_eq_none.mp hk ?_
      obtain ⟨e, he, rfl⟩ := List.mem_map.mp hmem
      exact List.mem_map_of_mem ((h e).mp he)

theorem find?_setItems (l : List (K × V)) (k k' : K) (v : V) :
    ((setItems k v l).find? (·.1 = k')).map Prod.snd =
      if k' = k then some v else (l.find? (·.1 = k')).map Prod.snd := by
  induction l with
  | nil => by_cases hk : k' = k <;> simp [setItems, hk, Ne.symm]
  | cons e l ih =>
      by_cases he : e.1 = k
      · by_cases hk : k' = k
        · simp [setItems, he, hk]
        · have hne : k ≠ k' := Ne.symm hk
          simp [setItems, he, hk, hne]
      · by_cases hek : e.1 = k'
        · have hne : k' ≠ k := hek ▸ he
          simp [setItems, hek, hne]
        · simpa [setItems, he, hek] using ih

theorem get?_set (d : Dict K V) (k k' : K) (v : V) :
    (d.set k v).get? k' = if k' = k then some v else d.get? k' :=
  find?_setItems d.items k k' v

theorem mem_keys_set {d : Dict K V} {k k' : K} {v : V} :
    k' ∈ (d.set k v).keys ↔ k' = k ∨ k' ∈ d.keys := by
  rw [keys, set, keys_setItems, keys]
  split
  · next h => exact ⟨.inr, fun h' => h'.elim (fun he => he ▸ h) id⟩
  · simp [or_comm]

theorem mem_keys_del {d : Dict K V} {k k' : K} : k' ∈ (d.del k).keys ↔ k' ∈ d.keys ∧ k' ≠ k := by
  simp only [keys, del, List.mem_map, List.mem_filter, decide_eq_true_eq]
  constructor
  · rintro ⟨e, ⟨he, hne⟩, rfl⟩
    exact ⟨⟨e, he, rfl⟩, hne⟩
  · rintro ⟨⟨e, he, rfl⟩, hne⟩
    exact ⟨e, ⟨he, hne⟩, rfl⟩

/-! ## values -/

/-- `d.values()`. -/
def values (d : Dict K V) : List V := d.items.map Prod.snd

theorem setItems_of_not_mem {l : List (K × V)} {k : K} {v : V} (h : k ∉ l.map Prod.fst) :
    setItems k v l = l ++ [(k, v)] := by
  induction l with
  | nil => rfl
  | cons e l ih =>
      rw [List.map_cons, List.mem_cons, not_or] at h
      rw [setItems, if_neg (Ne.symm h.1), ih h.2, List.cons_append]

/-- A new key comes last. -/
theorem items_set_of_not_mem {d : Dict K V} {k : K} {v : V} (h : k ∉ d.keys) :
    (d.set k v).items = d.items ++ [(k, v)] := setItems_of_not_mem h

/-- So do new keys that are set one after the other. -/
theorem items_foldl_set {l : List (K × V)} {d : Dict K V} (hnodup : (l.map Prod.fst).Nodup)
    (hnew : ∀ k ∈ l.map Prod.fst, k ∉ d.keys) :
    (l.foldl (fun d e => d.set e.1 e.2) d).items = d.items ++ l := by
  induction l generalizing d with
  | nil => simp
  | cons e l ih =>
      rw [List.map_cons, List.nodup_cons] at hnodup
      have hset := items_set_of_not_mem (d := d) (v := e.2) (hnew e.1 (by simp))
      rw [List.foldl_cons, ih hnodup.2, hset, List.append_assoc, List.singleton_append]
      intro k hk hmem
      obtain rfl | hmem := mem_keys_set.mp hmem
      · exact hnodup.1 hk
      · exact hnew k (by simp [hk]) hmem

theorem mem_keys_foldl_set {l : List (K × V)} {d : Dict K V} {k : K} :
    k ∈ (l.foldl (fun d e => d.set e.1 e.2) d).keys ↔ k ∈ d.keys ∨ k ∈ l.map Prod.fst := by
  induction l generalizing d with
  | nil => simp
  | cons e l ih =>
      rw [List.foldl_cons, ih, mem_keys_set, List.map_cons, List.mem_cons]
      tauto

/-- Different keys have different values just when no value occurs twice. -/
theorem values_nodup_iff {d : Dict K V} :
    d.values.Nodup ↔ ∀ k ∈ d.keys, ∀ k' ∈ d.keys, k ≠ k' → d.get? k ≠ d.get? k' := by
  constructor
  · intro h k hk k' hk' hne
    obtain ⟨e, he, rfl⟩ := List.mem_map.mp hk
    obtain ⟨e', he', rfl⟩ := List.mem_map.mp hk'
    rw [get?_of_mem he, get?_of_mem he', Ne, Option.some.injEq]
    exact fun heq => hne (congrArg Prod.fst (List.inj_on_of_nodup_map h he he' heq))
  · intro h
    refine (d.nodup.of_map _).map_on fun e he e' he' heq => ?_
    have hkey : e.1 = e'.1 := by
      by_contra hne
      refine h e.1 (List.mem_map_of_mem he) e'.1 (List.mem_map_of_mem he') hne ?_
      rw [get?_of_mem he, get?_of_mem he', heq]
    exact Prod.ext hkey heq

/-- `for k in ks: if k in d: del d[k]` -/
theorem mem_keys_foldl_del {ks : List K} {d : Dict K V} {k : K} :
    k ∈ (ks.foldl del d).keys ↔ k ∈ d.keys ∧ k ∉ ks := by
  induction ks generalizing d with
  | nil => simp
  | cons k' ks ih => rw [List.foldl_cons, ih, mem_keys_del, List.mem_cons, not_or, and_assoc]

theorem foldl_del_sublist (ks : List K) (d : Dict K V) : (ks.foldl del d).items.Sublist d.items := by
  induction ks generalizing d with
  | nil => exact .refl _
  | cons k ks ih => exact (ih (d.del k)).trans List.filter_sublist

theorem mem_items_foldl_del {ks : List K} {d : Dict K V} {e : K × V}
    (h : e ∈ (ks.foldl del d).items) : e ∈ d.items :=
  (foldl_del_sublist ks d).subset h

theorem mem_items_foldl_del_iff {ks : List K} {d : Dict K V} {e : K × V} :
    e ∈ (ks.foldl del d).items ↔ e ∈ d.items ∧ e.1 ∉ ks := by
  refine ⟨fun h => ⟨mem_items_foldl_del h, ?_⟩, fun ⟨he, hk⟩ => ?_⟩
  · exact (mem_keys_foldl_del.mp (List.mem_map_of_mem h)).2
  · obtain ⟨e', he', hkey⟩ := List.mem_map.mp
      (mem_keys_foldl_del.mpr ⟨List.mem_map_of_mem he, hk⟩)
    obtain rfl := List.inj_on_of_nodup_map d.nodup (mem_items_foldl_del he') he hkey
    exact he'

/-- No more goes than there are keys to delete. -/
theorem length_le_foldl_del (ks : List K) (d : Dict K V) :
    d.items.length ≤ (ks.foldl del d).items.length + ks.length := by
  induction ks generalizing d with
  | nil => exact le_rfl
  | cons k ks ih =>
      have honce : d.items.countP (·.1 = k) ≤ 1 := by
        have := List.nodup_iff_count_le_one.mp d.nodup k
        rwa [List.count_eq_countP, List.countP_map] at this
      have hsplit := d.items.length_eq_countP_add_countP (·.1 = k)
      have hdel : (d.del k).items.length = d.items.countP fun e => !decide (e.1 = k) := by
        rw [del, ← List.countP_eq_length_filter]
        exact List.countP_congr fun e _ => by simp
      have hrest := ih (d.del k)
      simp only [decide_eq_true_eq, decide_not] at hsplit
      rw [List.foldl_cons, List.length_cons]
      omega

theorem get?_mapValues {f : V → W} {d : Dict K V} {k : K} :
    (d.mapValues f).get? k = (d.get? k).map f := by
  simp [get?, mapValues, List.find?_map, Function.comp_def]

/-! ## grouping -/

/-- What a list of entries holds for a key. -/
def valuesOf (l : List (K × V)) (k : K) : List V := (l.filter (·.1 = k)).map Prod.snd

/-- A loop of `append` adds to each key its entries, in order. -/
theorem get?_foldl_append (l : List (K × V)) (d : Dict K (List V)) (k : K) :
    ((l.foldl (fun d e => d.append e.1 e.2) d).get? k).getD [] =
      (d.get? k).getD [] ++ valuesOf l k := by
  induction l generalizing d with
  | nil => simp [valuesOf]
  | cons e l ih =>
      rw [List.foldl_cons, ih, append, get?_set]
      by_cases hk : k = e.1
      · simp [hk, valuesOf]
      · have hne : e.1 ≠ k := Ne.symm hk
        simp [hk, valuesOf, hne]

/-- The entries by their keys. -/
def group (l : List (K × V)) : Dict K (List V) := l.foldl (fun d e => d.append e.1 e.2) empty

/-- What is stored under any key. -/
theorem mem_flatten_values {d : Dict K (List V)} {x : V} :
    x ∈ d.values.flatten ↔ ∃ k, x ∈ (d.get? k).getD [] := by
  constructor
  · intro hx
    obtain ⟨vs, hvs, hx⟩ := List.mem_flatten.mp hx
    obtain ⟨e, he, rfl⟩ := List.mem_map.mp hvs
    exact ⟨e.1, by rw [get?_of_mem he]; exact hx⟩
  · intro ⟨k, hx⟩
    cases hget : d.get? k with
    | none => simp [hget] at hx
    | some vs =>
        rw [hget] at hx
        exact List.mem_flatten.mpr ⟨vs, List.mem_map_of_mem (mem_items_of_get? hget), hx⟩

theorem mem_flatten_values_append {d : Dict K (List V)} {k : K} {v x : V} :
    x ∈ (d.append k v).values.flatten ↔ x ∈ d.values.flatten ∨ x = v := by
  have hget : ∀ k', x ∈ ((d.append k v).get? k').getD [] ↔
      x ∈ (d.get? k').getD [] ∨ k' = k ∧ x = v := by
    intro k'
    have h := get?_foldl_append [(k, v)] d k'
    rw [List.foldl_cons, List.foldl_nil] at h
    rw [h, List.mem_append]
    by_cases hk : k = k'
    · simp [valuesOf, hk]
    · have hne : k' ≠ k := Ne.symm hk
      simp [valuesOf, hk, hne]
  simp only [mem_flatten_values, hget, exists_or, exists_eq_left]

end Dict

end CloudProfiler
