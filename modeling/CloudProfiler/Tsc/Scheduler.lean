import CloudProfiler.Tsc.Minrtt

/-!
# CloudProfiler.Tsc.Scheduler

The RTT scheduler: `schedule_from_files` gives the actors of a measurement
graph to nodes that are close to each other.

Every round takes the node whose nearest peers are nearest, for an actor, and
these peers, for its successors.  The node is new: what was handed out is
deleted from the record.  The peers need not be, since the lists of the nodes
that remain still mention what was handed out.

* `schedule` — the function on what the files hold, `scheduleFromFiles` on
  their characters;
* `round_eq_some` — what one round does;
* `rounds_items` — the actors that have a node in the end.
-/

namespace CloudProfiler.Tsc

/-- A node, by its address. -/
abbrev Node := List Char

/-- An actor, by its name. -/
abbrev Actor := List Char

/-- Actors and the actors they send to. -/
abbrev MeasGraph := Dict Actor (List Actor)

/-- Which actor goes where. -/
abbrev Assignment := Dict Actor Node

/-! ## files -/

/-- The loop of `loadMeasGraph`; `none` is an `IndexError`. -/
def loadMeasLines : List (List Char) → MeasGraph → Option MeasGraph
  | [], d => some d
  | line :: lines, d =>
      if line.head? = some '#' then loadMeasLines lines d
      else
        let slice (x : List Char) := strip (fun c => c = '[' || c = ']') (strip isBlank x)
        -- `line.split(',', 1)` without a comma has no second part
        match line.dropWhile (· ≠ ',') with
        | [] => none
        | _ :: succ =>
            loadMeasLines lines
              (d.set (slice (line.takeWhile (· ≠ ',')))
                (((slice succ).splitOn ',').map (strip isBlank)))

/-- The function `loadMeasGraph`. -/
def loadMeasGraph (file : List Char) : Option MeasGraph :=
  loadMeasLines (readLines file) Dict.empty

/-- The function `loadTargetNodes`. -/
def loadTargetNodes (file : List Char) : List Node :=
  ((readLines file).filter (·.head? ≠ some '#')).map fun line =>
    strip isBlank (line.takeWhile (· ≠ ','))

/-! ## schedule -/

/-- Every list of peers sorted by time. -/
def sortPeers (od : RTTRecord) : RTTRecord := od.mapValues (List.insertionSort (·.2 ≤ ·.2))

/-- `if n in od: new_od[n] = [e for e in od[n]]` -/
def addTarget (od new_od : RTTRecord) (n : Node) : RTTRecord :=
  match od.get? n with
  | some v => Dict.set new_od n v
  | none => new_od

/-- The part of a record that is about the target nodes. -/
def restrict (nodes : List Node) (od : RTTRecord) : RTTRecord :=
  (nodes.foldl (addTarget od) Dict.empty).mapValues (List.filter (·.1 ∈ nodes))

/-- The actors with the most successors first. -/
def sortGraph (d : MeasGraph) : MeasGraph := d.sortBy fun e => -(e.2.length : Int)

/-- The least sum of `top_k` times comes first. -/
def sortNodes (top_k : Nat) (od : RTTRecord) : RTTRecord :=
  od.sortBy fun e => ((e.2.take top_k).map Prod.snd).sum

/-- The first `top_k` peers of a list. -/
def topPeers (top_k : Nat) (peers : List (Node × Int)) : List Node := (peers.take top_k).map Prod.fst

/-- One round; `none` is a `KeyError` when no node is left, or an `IndexError`
when the node has too few peers. -/
def round (e : Actor × List Actor) (od : RTTRecord) (assignment : Assignment) :
    Option (RTTRecord × Assignment) :=
  (sortNodes e.2.length od).popFirst.bind fun target =>
    let t_peers := topPeers e.2.length target.1.2
    if e.2.length ≤ t_peers.length then
      some (t_peers.foldl Dict.del target.2,
        (e.2.zip t_peers).foldl (fun a e => a.set e.1 e.2) (assignment.set e.1 target.1.1))
    else none

/-- The loop over the graph. -/
def rounds : List (Actor × List Actor) → RTTRecord → Assignment → Option Assignment
  | [], _, assignment => some assignment
  | e :: graph, od, assignment => (round e od assignment).bind fun s => rounds graph s.1 s.2

/-- The record the loop starts with. -/
def prepare (od : RTTRecord) : Option (List Node) → RTTRecord
  | some nodes => restrict nodes (sortPeers od)
  | none => sortPeers od

/-- The body of `schedule_from_files`, with `none` for no file of target
nodes. -/
def schedule (od : RTTRecord) (targets : Option (List Node)) (d : MeasGraph) : Option Assignment :=
  rounds (sortGraph d).items (prepare od targets) Dict.empty

/-- The function `schedule_from_files` on the characters of its files. -/
def scheduleFromFiles (minrtt_log : List Char) (target_nodes : Option (List Char))
    (measure_graph : List Char) : Option Assignment :=
  (loadRTTRecord minrtt_log).bind fun od =>
    (loadMeasGraph measure_graph).bind fun d =>
      schedule od (target_nodes.map loadTargetNodes) d

/-! ## one round -/

variable {e : Actor × List Actor} {od od' : RTTRecord} {a a' : Assignment}
  {graph : List (Actor × List Actor)}

/-- The actors of some items of a graph. -/
def actorsOf (graph : List (Actor × List Actor)) : List Actor :=
  graph.flatMap fun e => e.1 :: e.2

/-- What a round does: the first node of the sorted record and its first peers
are appended to the assignment and leave the record. -/
theorem round_eq_some (hactors : (actorsOf [e]).Nodup) (hnew : ∀ b ∈ actorsOf [e], b ∉ a.keys)
    (h : round e od a = some (od', a')) :
    ∃ target rest, (sortNodes e.2.length od).popFirst = some (target, rest) ∧
      (topPeers e.2.length target.2).length = e.2.length ∧
      od' = (topPeers e.2.length target.2).foldl Dict.del rest ∧
      a'.items = a.items ++ (e.1 :: e.2).zip (target.1 :: topPeers e.2.length target.2) := by
  obtain ⟨⟨target, rest⟩, hpop, h⟩ := Option.bind_eq_some_iff.mp h
  dsimp only at h
  split at h
  · next hle =>
    cases h
    have hlen : (topPeers e.2.length target.2).length = e.2.length :=
      le_antisymm (by simp [topPeers]) hle
    have hkeys : (e.2.zip (topPeers e.2.length target.2)).map Prod.fst = e.2 :=
      List.map_fst_zip hlen.ge
    simp only [actorsOf, List.flatMap_singleton, List.nodup_cons] at hactors
    simp only [actorsOf, List.flatMap_singleton, List.mem_cons, forall_eq_or_imp] at hnew
    refine ⟨target, rest, hpop, hlen, rfl, ?_⟩
    rw [Dict.items_foldl_set, Dict.items_set_of_not_mem hnew.1, List.append_assoc,
      List.singleton_append, List.zip_cons_cons]
    · rw [hkeys]
      exact hactors.2
    · rw [hkeys]
      intro b hb hmem
      obtain rfl | hmem := Dict.mem_keys_set.mp hmem
      · exact hactors.1 hb
      · exact hnew.2 b hb hmem
  · cases h

theorem actorsOf_cons (e : Actor × List Actor) (graph : List (Actor × List Actor)) :
    actorsOf (e :: graph) = actorsOf [e] ++ actorsOf graph := by simp [actorsOf]

/-- The actors of a round are appended. -/
theorem round_items (hactors : (actorsOf [e]).Nodup) (hnew : ∀ b ∈ actorsOf [e], b ∉ a.keys)
    (h : round e od a = some (od', a')) :
    ∃ new, a'.items = a.items ++ new ∧ new.map Prod.fst = actorsOf [e] := by
  obtain ⟨target, rest, -, hlen, -, hitems⟩ := round_eq_some hactors hnew h
  refine ⟨_, hitems, ?_⟩
  rw [List.map_fst_zip (by simp [hlen])]
  simp [actorsOf]

/-- Every actor of a round gets a node, also one that has a node already. -/
theorem mem_keys_round {b : Actor} (h : round e od a = some (od', a')) :
    b ∈ a'.keys ↔ b ∈ a.keys ∨ b ∈ actorsOf [e] := by
  obtain ⟨⟨target, rest⟩, -, h⟩ := Option.bind_eq_some_iff.mp h
  dsimp only at h
  split at h
  · next hle =>
    cases h
    rw [Dict.mem_keys_foldl_set, Dict.mem_keys_set, List.map_fst_zip hle]
    simp only [actorsOf, List.flatMap_singleton, List.mem_cons]
    tauto
  · cases h

/-! ## all rounds -/

theorem not_mem_keys_of_items {new : List (Actor × Node)} {b : Actor}
    (hitems : a'.items = a.items ++ new) (hnew : b ∉ new.map Prod.fst) (hb : b ∉ a.keys) :
    b ∉ a'.keys := by
  rw [Dict.keys, hitems, List.map_append, List.mem_append, not_or]
  exact ⟨hb, hnew⟩

theorem rounds_items (hactors : (actorsOf graph).Nodup) (hnew : ∀ b ∈ actorsOf graph, b ∉ a.keys)
    (h : rounds graph od a = some a') :
    ∃ new, a'.items = a.items ++ new ∧ new.map Prod.fst = actorsOf graph := by
  induction graph generalizing od a with
  | nil =>
      cases h
      exact ⟨[], by simp, rfl⟩
  | cons e graph ih =>
      rw [actorsOf_cons] at hactors hnew ⊢
      obtain ⟨⟨od₁, a₁⟩, hround, h⟩ := Option.bind_eq_some_iff.mp h
      obtain ⟨hactors₁, hactors₂, hdisj⟩ := List.nodup_append'.mp hactors
      obtain ⟨new, hitems, hkeys⟩ :=
        round_items hactors₁ (fun b hb => hnew b (List.mem_append_left _ hb)) hround
      have hnew₁ : ∀ b ∈ actorsOf graph, b ∉ a₁.keys := fun b hb =>
        not_mem_keys_of_items hitems (hkeys ▸ fun hmem => hdisj hmem hb)
          (hnew b (List.mem_append_right _ hb))
      obtain ⟨new', hitems', hkeys'⟩ := ih hactors₂ hnew₁ h
      exact ⟨new ++ new', by rw [hitems', hitems, List.append_assoc],
        by rw [List.map_append, hkeys, hkeys']⟩

theorem mem_keys_rounds {b : Actor} (h : rounds graph od a = some a') :
    b ∈ a'.keys ↔ b ∈ a.keys ∨ b ∈ actorsOf graph := by
  induction graph generalizing od a with
  | nil =>
      cases h
      simp [actorsOf]
  | cons e graph ih =>
      obtain ⟨⟨od₁, a₁⟩, hround, h⟩ := Option.bind_eq_some_iff.mp h
      rw [ih h, mem_keys_round hround, actorsOf_cons e graph, List.mem_append, or_assoc]

/-- Four nodes, each measured to every other. -/
def fourNodes : RTTRecord where
  items :=
    [("n1".toList, [("n2".toList, 1), ("n3".toList, 9), ("n4".toList, 9)]),
      ("n2".toList, [("n1".toList, 1), ("n3".toList, 2), ("n4".toList, 8)]),
      ("n3".toList, [("n1".toList, 9), ("n2".toList, 2), ("n4".toList, 3)]),
      ("n4".toList, [("n1".toList, 9), ("n2".toList, 8), ("n3".toList, 3)])]
  nodup := by decide

/-- Actors that send to one other actor each, `a` to `b` and `c` to `d`. -/
def twoPairs : MeasGraph where
  items := [("a".toList, ["b".toList]), ("c".toList, ["d".toList])]
  nodup := by decide

end CloudProfiler.Tsc
