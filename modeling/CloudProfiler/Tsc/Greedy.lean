import CloudProfiler.Least
import CloudProfiler.Tsc.Scheduler

/-!
# CloudProfiler.Tsc.Greedy

What the RTT scheduler minimises, and when it has an answer.

A round hands out a star: a node and as many of its peers as the actor has
successors.  Of all the stars the files allow around a node that was not
handed out before, it is one with the least sum of times.

* `Greedy` — the stars of the rounds, `schedule_greedy` — the assignment is
  made of such stars;
* `schedule_enough` — with enough nodes and peers no round fails.
-/

namespace CloudProfiler.Tsc

/-! ## stars -/

/-- A node and peers of it, with the times to them. -/
structure Star where
  centre : Node
  peers : List (Node × Int)

/-- The nodes that are handed out. -/
def Star.nodes (s : Star) : List Node := s.centre :: s.peers.map Prod.fst

/-- The sum of the times. -/
def Star.rtt (s : Star) : Int := (s.peers.map Prod.snd).sum

/-- A star for an actor with `k` successors: the peers are recorded for the
node, and all are target nodes. -/
structure Choice (od : RTTRecord) (targets : Option (List Node)) (k : Nat) (s : Star) : Prop where
  recorded : ∃ v, od.get? s.centre = some v ∧ s.peers.Subperm v
  length : s.peers.length = k
  target : ∀ nodes ∈ targets, ∀ n ∈ s.nodes, n ∈ nodes

/-- Round after round a star with the least sum of times is taken, around a
node that is not `used`. -/
inductive Greedy (od : RTTRecord) (targets : Option (List Node)) :
    List (Actor × List Actor) → List Node → List Star → Prop
  | done (used : List Node) : Greedy od targets [] used []
  | round {e : Actor × List Actor} {graph : List (Actor × List Actor)} {used : List Node}
      {s : Star} {stars : List Star} (choice : Choice od targets e.2.length s)
      (unused : s.centre ∉ used)
      (least : ∀ s', Choice od targets e.2.length s' → s'.centre ∉ used → s.rtt ≤ s'.rtt)
      (rest : Greedy od targets graph (used ++ s.nodes) stars) :
      Greedy od targets (e :: graph) used (s :: stars)

/-- The stars as an assignment. -/
def assigned (graph : List (Actor × List Actor)) (stars : List Star) : List (Actor × Node) :=
  (graph.zip stars).flatMap fun x => (x.1.1 :: x.1.2).zip x.2.nodes

/-! ## the record of the loop -/

variable {od cur cur' : RTTRecord} {targets : Option (List Node)} {a a' : Assignment}
  {graph : List (Actor × List Actor)} {used : List Node} {k : Nat} {n : Node}
  {v : List (Node × Int)}

theorem get?_addTarget (od d : RTTRecord) (m n : Node) :
    (addTarget od d m).get? n = if n = m then (od.get? n).or (d.get? n) else d.get? n := by
  by_cases hn : n = m
  · subst hn
    rw [addTarget, if_pos rfl]
    cases od.get? n with
    | none => rfl
    | some v => simp [Dict.get?_set]
  · rw [addTarget, if_neg hn]
    cases od.get? m with
    | none => rfl
    | some v => simp [Dict.get?_set, hn]

theorem get?_foldl_addTarget (od d : RTTRecord) (ns : List Node) (n : Node) :
    (ns.foldl (addTarget od) d).get? n =
      if n ∈ ns then (od.get? n).or (d.get? n) else d.get? n := by
  induction ns generalizing d with
  | nil => simp
  | cons m ns ih =>
      rw [List.foldl_cons, ih, get?_addTarget]
      by_cases hn : n = m
      · subst hn
        by_cases hmem : n ∈ ns
        · cases h : od.get? n <;> simp [hmem]
        · simp [hmem]
      · simp [hn]

/-- The peers that can be handed out. -/
def usablePeers (targets : Option (List Node)) (v : List (Node × Int)) : List (Node × Int) :=
  match targets with
  | some nodes => v.filter (nodes.contains ·.1)
  | none => v

/-- What the loop starts with: the target nodes, with their peers sorted. -/
theorem get?_prepare {v' : List (Node × Int)} :
    (prepare od targets).get? n = some v' ↔ (∀ nodes ∈ targets, n ∈ nodes) ∧
      ∃ v, od.get? n = some v ∧ v' = usablePeers targets (v.insertionSort (·.2 ≤ ·.2)) := by
  cases targets with
  | none =>
      rw [prepare, sortPeers, Dict.get?_mapValues, Option.map_eq_some_iff]
      simp [usablePeers, eq_comm]
  | some nodes =>
      rw [prepare, restrict, Dict.get?_mapValues, get?_foldl_addTarget, sortPeers,
        Dict.get?_mapValues, Dict.get?_empty, Option.or_none]
      by_cases hn : n ∈ nodes <;> simp [hn, usablePeers, eq_comm]

theorem mem_items_iff {d : RTTRecord} {e : Node × List (Node × Int)} :
    e ∈ d.items ↔ d.get? e.1 = some e.2 :=
  ⟨Dict.get?_of_mem, Dict.mem_items_of_get?⟩

theorem sorted_usablePeers (targets : Option (List Node)) (v : List (Node × Int)) :
    (usablePeers targets (v.insertionSort (·.2 ≤ ·.2))).Pairwise (·.2 ≤ ·.2) := by
  have hsorted := List.pairwise_insertionSort (fun a b : Node × Int => a.2 ≤ b.2) v
  cases targets with
  | none => exact hsorted
  | some nodes => exact hsorted.filter _

/-- The stars that are allowed are those of the prepared record. -/
theorem choice_iff {s : Star} : Choice od targets k s ↔
    ∃ v, (prepare od targets).get? s.centre = some v ∧ s.peers.Subperm v ∧ s.peers.length = k := by
  constructor
  · rintro ⟨⟨v, hv, hsub⟩, hlen, htarget⟩
    refine ⟨_, get?_prepare.mpr ⟨fun nodes h => htarget nodes h _ List.mem_cons_self, v, hv, rfl⟩,
      ?_, hlen⟩
    have hsub' := hsub.trans (List.perm_insertionSort (fun a b => a.2 ≤ b.2) v).symm.subperm
    cases targets with
    | none => exact hsub'
    | some nodes =>
        have hkeep : s.peers.filter (nodes.contains ·.1) = s.peers := by
          refine List.filter_eq_self.mpr fun p hp => List.contains_iff_mem.mpr ?_
          exact htarget nodes rfl _ (List.mem_cons_of_mem _ (List.mem_map_of_mem hp))
        rw [← hkeep]
        exact hsub'.filter _
  · rintro ⟨v', hv', hsub, hlen⟩
    obtain ⟨htarget, v, hv, rfl⟩ := get?_prepare.mp hv'
    have hperm := List.perm_insertionSort (fun a b : Node × Int => a.2 ≤ b.2) v
    cases targets with
    | none => exact ⟨⟨v, hv, hsub.trans hperm.subperm⟩, hlen, by simp⟩
    | some nodes =>
        refine ⟨⟨v, hv, (hsub.trans List.filter_sublist.subperm).trans hperm.subperm⟩, hlen, ?_⟩
        intro nodes' hnodes n hn
        obtain rfl := Option.mem_some_iff.mp hnodes
        obtain rfl | hn := List.mem_cons.mp hn
        · exact htarget nodes rfl
        · obtain ⟨p, hp, rfl⟩ := List.mem_map.mp hn
          simpa using (List.mem_filter.mp (hsub.subset hp)).2

/-- What is left of the prepared record. -/
def Left (od₀ cur : RTTRecord) (used : List Node) : Prop :=
  ∀ e, e ∈ cur.items ↔ e ∈ od₀.items ∧ e.1 ∉ used

/-! ## rounds -/

/-- The star of a round. -/
theorem round_star {od₀ rest : RTTRecord} {target : Node × List (Node × Int)}
    (hleft : Left od₀ cur used) (hpop : (sortNodes k cur).popFirst = some (target, rest))
    (hlen : (topPeers k target.2).length = k) :
    Left od₀ ((topPeers k target.2).foldl Dict.del rest)
        (used ++ Star.nodes ⟨target.1, target.2.take k⟩) ∧
      target ∈ od₀.items ∧ target.1 ∉ used ∧
      ∀ e ∈ od₀.items, e.1 ∉ used →
        ((target.2.take k).map Prod.snd).sum ≤ ((e.2.take k).map Prod.snd).sum := by
  have hitems := Dict.popFirst_eq_some hpop
  have hmem (e : Node × List (Node × Int)) : e = target ∨ e ∈ rest.items ↔
      e ∈ od₀.items ∧ e.1 ∉ used := by
    rw [← hleft, ← List.mem_cons, ← hitems]
    exact Dict.mem_items_sortBy
  have hne : ∀ e ∈ rest.items, e.1 ≠ target.1 := fun e he heq => by
    have hnodup := (sortNodes k cur).nodup
    rw [hitems, List.map_cons, List.nodup_cons] at hnodup
    exact hnodup.1 (heq ▸ List.mem_map_of_mem he)
  obtain ⟨htarget, hfree⟩ := (hmem target).mp (.inl rfl)
  refine ⟨fun e => ?_, htarget, hfree, fun e he hu => ?_⟩
  · rw [Dict.mem_items_foldl_del_iff, List.mem_append, not_or, ← and_assoc, ← hmem]
    have hnodes : e.1 ∈ Star.nodes ⟨target.1, target.2.take k⟩ ↔
        e.1 = target.1 ∨ e.1 ∈ topPeers k target.2 := List.mem_cons
    rw [hnodes, not_or, ← and_assoc]
    refine and_congr_left fun _ => ⟨fun he => ⟨.inr he, hne e he⟩, fun h => ?_⟩
    exact h.1.resolve_left fun heq => h.2 (congrArg Prod.fst heq)
  · have hsorted := List.pairwise_insertionSort (fun a b : Node × List (Node × Int) =>
      ((a.2.take k).map Prod.snd).sum ≤ ((b.2.take k).map Prod.snd).sum) cur.items
    change (sortNodes k cur).items.Pairwise _ at hsorted
    rw [hitems, List.pairwise_cons] at hsorted
    obtain rfl | he := (hmem e).mpr ⟨he, hu⟩
    · exact le_rfl
    · exact hsorted.1 e he

/-- **Round lemma.**  No star that is allowed has a smaller sum. -/
theorem round_greedy {e : Actor × List Actor} (hactors : (actorsOf [e]).Nodup)
    (hnew : ∀ b ∈ actorsOf [e], b ∉ a.keys) (hleft : Left (prepare od targets) cur used)
    (h : round e cur a = some (cur', a')) : ∃ s, Choice od targets e.2.length s ∧
      s.centre ∉ used ∧
      (∀ s', Choice od targets e.2.length s' → s'.centre ∉ used → s.rtt ≤ s'.rtt) ∧
      Left (prepare od targets) cur' (used ++ s.nodes) ∧
      a'.items = a.items ++ (e.1 :: e.2).zip s.nodes := by
  obtain ⟨target, rest, hpop, hlen, rfl, hitems⟩ := round_eq_some hactors hnew h
  obtain ⟨hleft', htarget, hunused, hleast⟩ := round_star hleft hpop hlen
  refine ⟨⟨target.1, target.2.take e.2.length⟩, ?_, hunused, fun s' hs' hs'u => ?_, hleft', hitems⟩
  · refine choice_iff.mpr ⟨target.2, mem_items_iff.mp htarget, (List.take_sublist _ _).subperm, ?_⟩
    simpa [topPeers] using hlen
  · -- around that node the nearest peers are nearest, and around the least node even nearer
    obtain ⟨v, hv, hsub, hk⟩ := choice_iff.mp hs'
    obtain ⟨-, w, -, rfl⟩ := get?_prepare.mp hv
    have hnear := Least.sum_take_le (sorted_usablePeers targets w) hsub
    rw [hk] at hnear
    exact (hleast (s'.centre, _) (mem_items_iff.mpr hv) hs'u).trans hnear

theorem mem_actorsOf_of_zip {e : Actor × List Actor} {nodes : List Node} {b : Actor}
    (h : b ∈ ((e.1 :: e.2).zip nodes).map Prod.fst) : b ∈ actorsOf [e] := by
  obtain ⟨x, hx, rfl⟩ := List.mem_map.mp h
  simpa [actorsOf] using (List.of_mem_zip hx).1

theorem rounds_greedy (hactors : (actorsOf graph).Nodup)
    (hnew : ∀ b ∈ actorsOf graph, b ∉ a.keys) (hleft : Left (prepare od targets) cur used)
    (h : rounds graph cur a = some a') : ∃ stars, Greedy od targets graph used stars ∧
      a'.items = a.items ++ assigned graph stars := by
  induction graph generalizing cur a used with
  | nil =>
      cases h
      exact ⟨[], .done used, (List.append_nil _).symm⟩
  | cons e graph ih =>
      rw [actorsOf_cons] at hactors hnew
      obtain ⟨⟨cur₁, a₁⟩, hround, h⟩ := Option.bind_eq_some_iff.mp h
      obtain ⟨hactors₁, hactors₂, hdisj⟩ := List.nodup_append'.mp hactors
      obtain ⟨s, hs, hunused, hleast, hleft₁, hitems⟩ := round_greedy hactors₁
        (fun b hb => hnew b (List.mem_append_left _ hb)) hleft hround
      have hnew₁ : ∀ b ∈ actorsOf graph, b ∉ a₁.keys := fun b hb =>
        not_mem_keys_of_items hitems
          (fun hmem => hdisj (mem_actorsOf_of_zip hmem) hb)
          (hnew b (List.mem_append_right _ hb))
      obtain ⟨stars, hstars, hitems'⟩ := ih hactors₂ hnew₁ hleft₁ h
      refine ⟨s :: stars, .round hs hunused hleast hstars, ?_⟩
      rw [hitems', hitems, List.append_assoc]
      rfl

theorem left_self (od₀ : RTTRecord) : Left od₀ od₀ [] := fun e => by simp

theorem actorsOf_sortGraph (d : MeasGraph) :
    (actorsOf (sortGraph d).items).Perm (actorsOf d.items) :=
  (List.perm_insertionSort _ d.items).flatMap_right _

/-- **The schedule is greedy**: it consists of one star for each actor that
sends, those with the most successors first, and each of them has the least
sum of times that was possible in its round. -/
theorem schedule_greedy {d : MeasGraph} {assignment : Assignment}
    (hactors : (actorsOf d.items).Nodup) (h : schedule od targets d = some assignment) :
    ∃ stars, Greedy od targets (sortGraph d).items [] stars ∧
      assignment.items = assigned (sortGraph d).items stars :=
  rounds_greedy ((actorsOf_sortGraph d).nodup_iff.mpr hactors) (by simp [Dict.empty, Dict.keys])
    (left_self _) h

/-- The two pairs get the stars from `n1` to `n2` and from `n3` to `n2`. -/
theorem schedule_greedy_twoPairs : ∃ assignment stars,
    schedule fourNodes none twoPairs = some assignment ∧
      Greedy fourNodes none (sortGraph twoPairs).items [] stars ∧
      assignment.items = assigned (sortGraph twoPairs).items stars := by
  obtain ⟨assignment, h⟩ : ∃ assignment, schedule fourNodes none twoPairs = some assignment :=
    Option.isSome_iff_exists.mp (by decide)
  obtain ⟨stars, hstars⟩ := schedule_greedy (by decide) h
  exact ⟨assignment, stars, h, hstars⟩

/-! ## enough nodes -/

/-- The nodes that can be handed out. -/
def usableNodes (od : RTTRecord) (targets : Option (List Node)) : List Node :=
  od.keys.filter fun n => targets.all (·.contains n)

theorem mem_keys_prepare : n ∈ (prepare od targets).keys ↔ n ∈ usableNodes od targets := by
  have hkeys {d : RTTRecord} : n ∈ d.keys ↔ ∃ v, d.get? n = some v := by
    rw [← Option.ne_none_iff_exists', Ne, Dict.get?_eq_none, not_not]
  have htargets : targets.all (·.contains n) = true ↔ ∀ nodes ∈ targets, n ∈ nodes := by
    cases targets <;> simp
  rw [hkeys, usableNodes, List.mem_filter, htargets, hkeys]
  constructor
  · rintro ⟨v', hv'⟩
    obtain ⟨htarget, v, hv, -⟩ := get?_prepare.mp hv'
    exact ⟨⟨v, hv⟩, htarget⟩
  · rintro ⟨⟨v, hv⟩, htarget⟩
    exact ⟨_, get?_prepare.mpr ⟨htarget, v, hv, rfl⟩⟩

theorem length_prepare (od : RTTRecord) (targets : Option (List Node)) :
    (prepare od targets).items.length = (usableNodes od targets).length := by
  have hperm : (prepare od targets).keys.Perm (usableNodes od targets) :=
    (List.perm_ext_iff_of_nodup (prepare od targets).nodup (od.nodup.filter _)).mpr
      fun _ => mem_keys_prepare
  rw [← hperm.length_eq, Dict.keys, List.length_map]

theorem length_usablePeers_insertionSort (targets : Option (List Node))
    (v : List (Node × Int)) :
    (usablePeers targets (v.insertionSort (·.2 ≤ ·.2))).length =
      (usablePeers targets v).length := by
  have hperm := List.perm_insertionSort (fun a b : Node × Int => a.2 ≤ b.2) v
  cases targets with
  | none => exact hperm.length_eq
  | some nodes => exact (hperm.filter _).length_eq

/-- A round that does not fail takes no more nodes than it has actors. -/
theorem round_enough {e : Actor × List Actor} (a : Assignment) (hne : cur.items ≠ [])
    (hpeers : ∀ t ∈ cur.items, e.2.length ≤ t.2.length) :
    ∃ cur' a', round e cur a = some (cur', a') ∧ (∀ t ∈ cur'.items, t ∈ cur.items) ∧
      cur.items.length ≤ cur'.items.length + (actorsOf [e]).length := by
  have hperm := List.perm_insertionSort
    (fun a b : Node × List (Node × Int) => ((a.2.take e.2.length).map Prod.snd).sum ≤
      ((b.2.take e.2.length).map Prod.snd).sum) cur.items
  change (sortNodes e.2.length cur).items.Perm cur.items at hperm
  obtain ⟨⟨target, rest⟩, hpop⟩ : ∃ x, (sortNodes e.2.length cur).popFirst = some x :=
    Dict.exists_popFirst fun h => hne (h ▸ hperm).nil_eq.symm
  have hitems := Dict.popFirst_eq_some hpop
  rw [hitems] at hperm
  have hle : e.2.length ≤ (topPeers e.2.length target.2).length := by
    simp [topPeers, hpeers target (hperm.subset List.mem_cons_self)]
  have htop : (topPeers e.2.length target.2).length ≤ e.2.length := by simp [topPeers]
  have hround : ∃ a', round e cur a =
      some ((topPeers e.2.length target.2).foldl Dict.del rest, a') := by
    rw [round, hpop, Option.bind_some]
    exact ⟨_, if_pos hle⟩
  obtain ⟨a', hround⟩ := hround
  refine ⟨_, a', hround, fun t ht => ?_, ?_⟩
  · exact hperm.subset (List.mem_cons_of_mem _ (Dict.mem_items_foldl_del ht))
  · have hdel := Dict.length_le_foldl_del (topPeers e.2.length target.2) rest
    have hlen := hperm.length_eq
    rw [List.length_cons] at hlen
    simp only [actorsOf, List.flatMap_singleton, List.length_cons]
    omega

theorem rounds_enough (a : Assignment)
    (hpeers : ∀ e ∈ graph, ∀ t ∈ cur.items, e.2.length ≤ t.2.length)
    (hnodes : (actorsOf graph).length ≤ cur.items.length) :
    ∃ a', rounds graph cur a = some a' := by
  induction graph generalizing cur a with
  | nil => exact ⟨a, rfl⟩
  | cons e graph ih =>
      rw [actorsOf_cons, List.length_append] at hnodes
      have hne : cur.items ≠ [] := fun h => by
        simp [h, actorsOf] at hnodes
      obtain ⟨cur', a', hround, hsub, hlen⟩ :=
        round_enough a hne (hpeers e List.mem_cons_self)
      obtain ⟨a'', h⟩ := ih a'
        (fun e' he' t ht => hpeers e' (List.mem_cons_of_mem _ he') t (hsub t ht)) (by omega)
      exact ⟨a'', by rw [rounds, hround, Option.bind_some, h]⟩

/-- **Enough nodes and peers**: with as many nodes that can be handed out as the
graph has places for actors, each with as many such peers as any actor has
successors, the scheduler has an answer for every actor. -/
theorem schedule_enough {d : MeasGraph}
    (hnodes : (actorsOf d.items).length ≤ (usableNodes od targets).length)
    (hpeers : ∀ n ∈ usableNodes od targets, ∀ v, od.get? n = some v →
      ∀ e ∈ d.items, e.2.length ≤ (usablePeers targets v).length) :
    ∃ assignment, schedule od targets d = some assignment ∧
      ∀ b, (∃ n, assignment.get? b = some n) ↔ b ∈ actorsOf d.items := by
  have hperm : (sortGraph d).items.Perm d.items := List.perm_insertionSort _ d.items
  have hpeers' : ∀ e ∈ (sortGraph d).items, ∀ t ∈ (prepare od targets).items,
      e.2.length ≤ t.2.length := by
    intro e he t ht
    have hkey := mem_keys_prepare.mp (List.mem_map_of_mem (f := Prod.fst) ht)
    obtain ⟨-, v, hv, heq⟩ := get?_prepare.mp (mem_items_iff.mp ht)
    rw [heq, length_usablePeers_insertionSort]
    exact hpeers t.1 hkey v hv e (hperm.subset he)
  have hnodes' : (actorsOf (sortGraph d).items).length ≤ (prepare od targets).items.length := by
    rwa [length_prepare, (actorsOf_sortGraph d).length_eq]
  obtain ⟨assignment, h⟩ := rounds_enough Dict.empty hpeers' hnodes'
  refine ⟨assignment, h, fun b => ?_⟩
  have hkeys : b ∈ assignment.keys ↔ b ∈ (Dict.empty : Assignment).keys ∨ b ∈ actorsOf _ :=
    mem_keys_rounds h
  rw [← Option.ne_none_iff_exists', Ne, Dict.get?_eq_none, not_not, hkeys,
    (actorsOf_sortGraph d).mem_iff]
  simp [Dict.empty, Dict.keys]

/-- The four nodes and the two pairs. -/
theorem schedule_enough_twoPairs : ∃ assignment,
    schedule fourNodes none twoPairs = some assignment ∧
      ∀ b, (∃ n, assignment.get? b = some n) ↔ b ∈ actorsOf twoPairs.items :=
  schedule_enough (by decide) (by decide)

/-- A triangle of three actors has six places: three nodes are too few. -/
example : schedule fourNodes (some ["n1".toList, "n2".toList, "n3".toList])
    ⟨[("a".toList, ["b".toList]), ("b".toList, ["c".toList]), ("c".toList, ["a".toList])],
      by decide⟩ = none := by decide

end CloudProfiler.Tsc
