import CloudProfiler.Elapsed

/-!
# CloudProfiler.DumpTS

Dictionaries of time-stamps as `dumpTSDict` writes them (`util.py`), loaded
again by `loadTS`.

The key is written once, and every time-stamp ends a line, so the second line
of a key starts with a comma.

* `dumpTSDict_eq` — the lines of the file;
* `loadTSLines_singletons` — keys with one time-stamp are loaded as they were;
* `roundTrips_iff` — no others are.
-/

namespace CloudProfiler

/-- A time-stamp as `dumpTSDict` writes it, without the end of the line. -/
def stampText (ts : TSEntry) : List Char :=
  lit ", " ++ intText ts.1 ++ lit ", " ++ intText ts.2

/-- `dumpTSDict`: the characters it writes. -/
def dumpTSDict (d : Dict Int (List TSEntry)) : List Char :=
  (d.sortBy Prod.fst).items.flatMap fun e =>
    intText e.1 ++ e.2.flatMap fun ts => stampText ts ++ ['\n']

/-- **What was dumped is loaded again.** -/
def RoundTrips (d : Dict Int (List TSEntry)) : Prop :=
  ∃ d', loadTS (dumpTSDict d) = some d' ∧ ∀ k, d'.get? k = d.get? k

/-! ## the lines of the file -/

/-- The lines of one key. -/
def entryLines : Int × List TSEntry → List (List Char)
  | (_, []) => []
  | (k, ts :: v) => (intText k ++ stampText ts) :: v.map stampText

theorem dumpTSDict_eq {d : Dict Int (List TSEntry)} (h : ∀ e ∈ d.items, e.2 ≠ []) :
    dumpTSDict d = unlines ((d.sortBy Prod.fst).items.flatMap entryLines) := by
  rw [dumpTSDict, unlines, List.flatMap_assoc]
  refine List.flatMap_congr fun e he => ?_
  obtain ⟨k, v⟩ := e
  cases v with
  | nil => exact absurd rfl (h _ (Dict.mem_items_sortBy.mp he))
  | cons ts v =>
      rw [entryLines, List.flatMap_cons, List.flatMap_cons, List.flatMap_map, List.append_assoc,
        List.append_assoc, List.append_assoc]

theorem newline_not_mem_stampText (ts : TSEntry) : '\n' ∉ stampText ts := by
  have hsep : '\n' ∉ lit ", " := not_mem_lit (by decide)
  simp [stampText, hsep, newline_not_mem_intText]

theorem newline_not_mem_entryLines {e : Int × List TSEntry} {l : List Char}
    (h : l ∈ entryLines e) : '\n' ∉ l := by
  obtain ⟨k, v⟩ := e
  cases v with
  | nil => cases h
  | cons ts v =>
      obtain rfl | h := List.mem_cons.mp h
      · simp [newline_not_mem_intText, newline_not_mem_stampText]
      · obtain ⟨ts', -, rfl⟩ := List.mem_map.mp h
        exact newline_not_mem_stampText ts'

/-- The columns of a line that starts with `id`. -/
theorem splitOn_stampText {id : List Char} (h : ',' ∉ id) (ts : TSEntry) :
    (id ++ stampText ts ++ ['\n']).splitOn ',' =
      [id, ' ' :: intText ts.1, ' ' :: intText ts.2 ++ ['\n']] := by
  have hsep : lit ", " = [',', ' '] := lit_ofList _
  simp only [stampText, hsep, List.append_assoc, List.cons_append, List.nil_append]
  rw [List.splitOn_append_cons_self_of_not_mem h, ← List.cons_append,
    List.splitOn_append_cons_self_of_not_mem (by simp [comma_not_mem_intText]),
    List.splitOn_eq_singleton (by simp [comma_not_mem_intText])]

/-- `int` skips the end of the line. -/
theorem parseInt_intText_newline (z : Int) : parseInt (' ' :: intText z ++ ['\n']) = some z :=
  parseInt_of_strip (strip_append_append (m := [' ']) (by simp [isBlank])
    (fun _ hc => isBlank_of_mem_intText hc) (by simp [isBlank]))

/-- What a line adds, if its key is a number. -/
theorem loadTSLines_stampText {id : List Char} (h : ',' ∉ id) (ts : TSEntry)
    (lines : List (List Char)) (d : Dict Int (List TSEntry)) :
    loadTSLines ((id ++ stampText ts ++ ['\n']) :: lines) d =
      (parseInt id).bind fun k => loadTSLines lines (d.append k ts) := by
  rw [loadTSLines, splitOn_stampText h]
  simp only [parseInt_blank_intText, parseInt_intText_newline, Option.bind_some]

theorem loadTSLines_keyed (k : Int) (ts : TSEntry) (lines : List (List Char))
    (d : Dict Int (List TSEntry)) :
    loadTSLines ((intText k ++ stampText ts ++ ['\n']) :: lines) d =
      loadTSLines lines (d.append k ts) := by
  rw [loadTSLines_stampText (comma_not_mem_intText k), parseInt_intText, Option.bind_some]

/-- A line without a key is an exception, wherever it is. -/
theorem loadTSLines_eq_none {lines : List (List Char)} (ts : TSEntry)
    (h : stampText ts ++ ['\n'] ∈ lines) (d : Dict Int (List TSEntry)) :
    loadTSLines lines d = none := by
  induction lines generalizing d with
  | nil => cases h
  | cons line lines ih =>
      obtain rfl | h := List.mem_cons.mp h
      · have hid : ',' ∉ ([] : List Char) := List.not_mem_nil
        have hline := loadTSLines_stampText hid ts lines d
        rw [List.nil_append] at hline
        rw [hline, show parseInt [] = none by decide, Option.bind_none]
      · rw [loadTSLines]
        split
        · simp [ih h]
        · rfl

/-- The lists that are loaded are not empty. -/
theorem loadTSLines_ne_nil {lines : List (List Char)} {d d' : Dict Int (List TSEntry)}
    (h : loadTSLines lines d = some d') (hd : ∀ k v, d.get? k = some v → v ≠ []) :
    ∀ k v, d'.get? k = some v → v ≠ [] := by
  induction lines generalizing d with
  | nil =>
      cases h
      exact hd
  | cons line lines ih =>
      rw [loadTSLines] at h
      split at h
      · obtain ⟨s, -, h⟩ := Option.bind_eq_some_iff.mp h
        obtain ⟨ns, -, h⟩ := Option.bind_eq_some_iff.mp h
        obtain ⟨id, -, h⟩ := Option.bind_eq_some_iff.mp h
        refine ih h fun k v hv => ?_
        rw [Dict.append, Dict.get?_set] at hv
        split at hv
        · cases hv
          simp
        · exact hd k v hv
      · cases h

/-! ## dumped and loaded -/

/-- Keys with one time-stamp each are loaded as they were. -/
theorem loadTSLines_singletons {l : List (Int × List TSEntry)} {d : Dict Int (List TSEntry)}
    (hone : ∀ e ∈ l, e.2.length = 1) (hnodup : (l.map Prod.fst).Nodup)
    (hnew : ∀ e ∈ l, e.1 ∉ d.keys) :
    ∃ d', loadTSLines ((l.flatMap entryLines).map (· ++ ['\n'])) d = some d' ∧
      d'.items = d.items ++ l := by
  induction l generalizing d with
  | nil => exact ⟨d, rfl, by simp⟩
  | cons e l ih =>
      obtain ⟨k, v⟩ := e
      obtain ⟨ts, rfl⟩ := List.length_eq_one_iff.mp (hone (k, v) List.mem_cons_self)
      have hk : k ∉ d.keys := hnew (k, [ts]) List.mem_cons_self
      obtain ⟨hnot, hnodup⟩ := List.nodup_cons.mp hnodup
      have hitems : (d.append k ts).items = d.items ++ [(k, [ts])] := by
        rw [Dict.append, Dict.get?_eq_none.mpr hk]
        exact Dict.items_set_of_not_mem hk
      obtain ⟨d', hload, hd'⟩ := ih (d := d.append k ts)
        (fun e he => hone e (List.mem_cons_of_mem _ he)) hnodup fun e he hmem => by
          obtain heq | hmem := Dict.mem_keys_set.mp hmem
          · exact hnot (List.mem_map.mpr ⟨e, he, heq⟩)
          · exact hnew e (List.mem_cons_of_mem _ he) hmem
      refine ⟨d', ?_, by rw [hd', hitems, List.append_assoc, List.singleton_append]⟩
      rw [List.flatMap_cons, entryLines, List.map_nil, List.singleton_append, List.map_cons,
        loadTSLines_keyed, hload]

/-- **A dictionary is loaded as it was if and only if** every key has exactly
one time-stamp. -/
theorem roundTrips_iff (d : Dict Int (List TSEntry)) :
    RoundTrips d ↔ ∀ e ∈ d.items, e.2.length = 1 := by
  have hload (h : ∀ e ∈ d.items, e.2 ≠ []) : loadTS (dumpTSDict d) =
      loadTSLines (((d.sortBy Prod.fst).items.flatMap entryLines).map (· ++ ['\n']))
        Dict.empty := by
    rw [loadTS, dumpTSDict_eq h, readLines_unlines]
    intro l hl
    obtain ⟨e, -, hl⟩ := List.mem_flatMap.mp hl
    exact newline_not_mem_entryLines hl
  constructor
  · rintro ⟨d', hd', hget⟩
    have hne : ∀ e ∈ d.items, e.2 ≠ [] := fun e he => by
      have h := loadTSLines_ne_nil hd' (fun k v hv => by cases hv) e.1 e.2
      rw [hget, Dict.get?_of_mem he] at h
      exact h rfl
    rw [hload hne] at hd'
    intro e he
    obtain ⟨k, _ | ⟨ts, _ | ⟨ts', v⟩⟩⟩ := e
    · exact absurd rfl (hne _ he)
    · rfl
    · -- the line of the second time-stamp has no key
      have hmem : stampText ts' ++ ['\n'] ∈
          ((d.sortBy Prod.fst).items.flatMap entryLines).map (· ++ ['\n']) :=
        List.mem_map_of_mem (List.mem_flatMap.mpr
          ⟨_, Dict.mem_items_sortBy.mpr he, by simp [entryLines]⟩)
      rw [loadTSLines_eq_none ts' hmem] at hd'
      cases hd'
  · intro hone
    obtain ⟨d', hd', hitems⟩ := loadTSLines_singletons (d := Dict.empty)
      (fun e he => hone e (Dict.mem_items_sortBy.mp he)) (d.sortBy Prod.fst).nodup
      fun e _ h => by cases h
    refine ⟨d', ?_, fun k => ?_⟩
    · rw [hload fun e he hnil => ?_, hd']
      have hlen := hone e he
      rw [hnil] at hlen
      cases hlen
    · refine Dict.get?_congr (fun e => ?_) k
      rw [hitems]
      exact Dict.mem_items_sortBy

/-- Two time-stamps for one key. -/
def twoStamps : Dict Int (List TSEntry) := ⟨[(1, [(1, 2), (3, 4)])], by decide⟩

/-- The file has a line without a key. -/
theorem not_roundTrips_twoStamps : ¬ RoundTrips twoStamps := by
  rintro ⟨d', hd', -⟩
  have hfile : dumpTSDict twoStamps =
      unlines [intText 1 ++ stampText (1, 2), stampText (3, 4)] :=
    dumpTSDict_eq (d := twoStamps) (by decide)
  rw [loadTS, hfile,
    readLines_unlines (by simp [newline_not_mem_intText, newline_not_mem_stampText]),
    loadTSLines_eq_none (3, 4) (by simp)] at hd'
  cases hd'

end CloudProfiler
