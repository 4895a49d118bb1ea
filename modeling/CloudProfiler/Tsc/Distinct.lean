import CloudProfiler.Tsc.Greedy

/-!
# CloudProfiler.Tsc.Distinct

Which files make the RTT scheduler give different nodes to different actors.

The node of a round is never one that was handed out, but the peers that come
with it may be: the lists of the nodes that remain still mention what was
handed out.  Whether they do is said here on the files alone: whose turn it is
follows from the sums of the times, the ties from the sums of the rounds
before, and those that are left from the places of the nodes in the files.

* `Election` — the nodes whose turn it is, round after round;
* `Unshared` — no list that is used names a node of an earlier star;
* `schedule_distinct_iff` — the assignment is one of distinct nodes exactly
  when this is so.
-/

namespace CloudProfiler.Tsc

/-! ## whose turn it is -/

section Turns

variable (od : RTTRecord) (targets : Option (List Node))

/-- The peers of a node that can be handed out, the nearest first. -/
def nearestPeers (n : Node) : List (Node × Int) :=
  usablePeers targets (((od.get? n).getD []).insertionSort (·.2 ≤ ·.2))

/-- A node with its `k` nearest peers. -/
def nearestStar (k : Nat) (n : Node) : Star where
  centre := n
  peers := (nearestPeers od targets n).take k

/-- Where a node stands among the target nodes, or in the record if there are
none. -/
def place (n : Node) : Nat := (targets.getD od.keys).idxOf n

/-- Whose turn comes first after rounds for these numbers of peers, the last
round first: the node with the smaller sum. -/
def Sooner : List Nat → Node → Node → Prop
  | [] => fun n m => place od targets n < place od targets m
  | k :: ks => Least.ThenBy (fun n => (nearestStar od targets k n).rtt) (Sooner ks)

/-- The nodes of the stars of some rounds. -/
def taken (past : List (Nat × Node)) : List Node :=
  past.flatMap fun r => (nearestStar od targets r.1 r.2).nodes

/-- The rounds, the last first, each with its number of peers and the node
whose turn it is: the first of those in no earlier star. -/
inductive Election : List (Nat × Node) → Prop
  | start : Election []
  | turn {k : Nat} {n : Node} {past : List (Nat × Node)} (earlier : Election past)
      (usable : n ∈ usableNodes od targets) (left : n ∉ taken od targets past)
      (first : ∀ m ∈ usableNodes od targets, m ∉ taken od targets past → m ≠ n →
        Sooner od targets (k :: past.map Prod.fst) n m) :
      Election ((k, n) :: past)

/-- The peers listed for a node whose turn it is are different nodes, not the
node itself, and in no earlier star. -/
def Unshared (sizes : List Nat) : Prop :=
  ∀ k n past, Election od targets ((k, n) :: past) →
    ((k, n) :: past).map Prod.fst <:+ sizes.reverse →
    (nearestStar od targets k n).nodes.Nodup ∧
      ∀ p ∈ (nearestStar od targets k n).peers, p.1 ∉ taken od targets past

end Turns

/-- How many peers the rounds ask for. -/
def sizes (d : MeasGraph) : List Nat := (d.items.map (·.2.length)).insertionSort (· ≥ ·)

theorem sizes_eq (d : MeasGraph) : sizes d = (sortGraph d).items.map (·.2.length) := by
  rw [sizes, sortGraph, Dict.sortBy, List.map_insertionSort (fun e e' : Actor × List Actor =>
    -(e.2.length : Int) ≤ -(e'.2.length : Int)) (· ≥ ·)]
  intro e _ e' _
  simp

variable {od cur cur' : RTTRecord} {targets : Option (List Node)} {a a' : Assignment}
  {e : Actor × List Actor} {graph : List (Actor × List Actor)} {d : MeasGraph}
  {assignment : Assignment} {past past' : List (Nat × Node)} {n m : Node} {k : Nat}

theorem taken_cons (k : Nat) (n : Node) (past : List (Nat × Node)) :
    taken od targets ((k, n) :: past) =
      (nearestStar od targets k n).nodes ++ taken od targets past := rfl

theorem Sooner.asymm {ks : List Nat} (h : Sooner od targets ks n m) :
    ¬ Sooner od targets ks m n := by
  induction ks with
  | nil => exact Nat.lt_asymm h
  | cons k ks ih =>
      intro h'
      obtain h | ⟨heq, h⟩ := h
      · exact absurd h'.key_le (not_le.mpr h)
      · obtain h' | ⟨-, h'⟩ := h'
        · exact absurd heq.le (not_le.mpr h')
        · exact ih h h'

/-- There is one election. -/
theorem Election.unique (h : Election od targets past) (h' : Election od targets past')
    (hsizes : past.map Prod.fst = past'.map Prod.fst) : past = past' := by
  induction h generalizing past' with
  | start => exact (List.map_eq_nil_iff.mp hsizes.symm).symm
  | @turn k n past _ usable left first ih =>
      cases h' with
      | start => cases hsizes
      | @turn k' m past' earlier' usable' left' first' =>
          obtain ⟨hk, hpast⟩ := List.cons.inj hsizes
          obtain rfl : k = k' := hk
          obtain rfl := ih earlier' hpast
          by_contra hne
          have hnm : m ≠ n := fun heq => hne (heq ▸ rfl)
          exact (first m usable' left' hnm).asymm (first' n usable left hnm.symm)

theorem Election.suffix (h : Election od targets past) (h' : Election od targets past')
    (hsizes : past.map Prod.fst <:+ past'.map Prod.fst) : past <:+ past' := by
  induction h' with
  | start => rw [List.map_eq_nil_iff.mp (List.suffix_nil.mp hsizes)]
  | @turn k n past' earlier usable left first ih =>
      obtain heq | hsuffix := List.suffix_cons_iff.mp hsizes
      · rw [h.unique (.turn earlier usable left first) heq]
      · exact (ih hsuffix).trans (List.suffix_cons _ _)

/-- The stars of an election have no node in common exactly when no list that
is used names a node of an earlier star. -/
theorem Election.nodup_iff {sizes : List Nat} (h : Election od targets past)
    (hsizes : past.map Prod.fst = sizes.reverse) :
    (taken od targets past).Nodup ↔ Unshared od targets sizes := by
  constructor
  · intro hnodup k n past' h' hsuffix
    obtain ⟨later, rfl⟩ := h'.suffix h (hsizes ▸ hsuffix)
    rw [taken, List.flatMap_append, List.nodup_append'] at hnodup
    obtain ⟨-, hnodup, -⟩ := hnodup
    obtain ⟨hstar, -, hdisj⟩ := List.nodup_append'.mp hnodup
    exact ⟨hstar, fun p hp =>
      hdisj (List.mem_cons_of_mem _ (List.mem_map_of_mem (f := Prod.fst) hp))⟩
  · intro hunshared
    have hpast : past.map Prod.fst <:+ sizes.reverse := hsizes ▸ List.suffix_rfl
    clear hsizes
    induction h with
    | start => exact List.nodup_nil
    | @turn k n past earlier usable left first ih =>
        obtain ⟨hstar, hpeers⟩ := hunshared k n past (.turn earlier usable left first) hpast
        have htail := (List.suffix_cons _ _).trans hpast
        refine List.nodup_append'.mpr ⟨hstar, ih htail, List.disjoint_cons_left.mpr ⟨left, ?_⟩⟩
        intro m hm
        obtain ⟨p, hp, rfl⟩ := List.mem_map.mp hm
        exact hpeers p hp

/-- All nodes of the stars are target nodes. -/
theorem Election.target (h : Election od targets past) (hn : n ∈ taken od targets past) :
    ∀ nodes ∈ targets, n ∈ nodes := by
  intro nodes htargets
  obtain rfl : targets = some nodes := htargets
  induction h with
  | start => cases hn
  | turn earlier usable left first ih =>
      rw [taken_cons, List.mem_append] at hn
      obtain hn | hn := hn
      · obtain rfl | hn := List.mem_cons.mp hn
        · simpa [usableNodes] using (List.mem_filter.mp usable).2
        · obtain ⟨p, hp, rfl⟩ := List.mem_map.mp hn
          simpa using (List.mem_filter.mp (List.mem_of_mem_take hp)).2
      · exact ih hn

/-! ## the record of the loop -/

theorem mem_items_prepare {t : Node × List (Node × Int)} (h : t ∈ (prepare od targets).items) :
    t.1 ∈ usableNodes od targets ∧ t.2 = nearestPeers od targets t.1 := by
  refine ⟨mem_keys_prepare.mp (List.mem_map_of_mem h), ?_⟩
  obtain ⟨-, v, hv, heq⟩ := get?_prepare.mp (mem_items_iff.mp h)
  rw [nearestPeers, hv, heq, Option.getD_some]

theorem pairwise_idxOf {α : Type} [BEq α] [LawfulBEq α] {l : List α} (h : l.Nodup) :
    l.Pairwise fun x y => l.idxOf x < l.idxOf y :=
  List.pairwise_iff_getElem.mpr fun i j hi hj hij => by
    rwa [h.idxOf_getElem, h.idxOf_getElem]

/-- A node is entered where the target nodes first name it. -/
theorem pairwise_foldl_addTarget (od : RTTRecord) (nodes : List Node) :
    (nodes.foldl (addTarget od) Dict.empty).keys.Pairwise
      fun n m => nodes.idxOf n < nodes.idxOf m := by
  induction nodes using List.reverseRecOn with
  | nil => exact .nil
  | append_singleton nodes n ih =>
      have hmem : ∀ m ∈ (nodes.foldl (addTarget od) Dict.empty).keys, m ∈ nodes := by
        intro m hm
        by_contra hne
        refine Dict.get?_eq_none.mp ?_ hm
        rw [get?_foldl_addTarget, if_neg hne, Dict.get?_empty]
      have ih' : (nodes.foldl (addTarget od) Dict.empty).keys.Pairwise
          fun m m' => (nodes ++ [n]).idxOf m < (nodes ++ [n]).idxOf m' := by
        refine ih.imp_of_mem fun hm hm' h => ?_
        rwa [List.idxOf_append_of_mem (hmem _ hm), List.idxOf_append_of_mem (hmem _ hm')]
      rw [List.foldl_append, List.foldl_cons, List.foldl_nil, addTarget]
      cases hn : od.get? n with
      | none => exact ih'
      | some v =>
          simp only [Dict.keys, Dict.set, Dict.keys_setItems]
          split
          · exact ih'
          · next hnew =>
            refine List.pairwise_append.mpr ⟨ih', List.pairwise_singleton _ _, fun m hm m' hm' => ?_⟩
            have hout : n ∉ nodes := fun hin => by
              have hnone := Dict.get?_eq_none.mpr hnew
              rw [get?_foldl_addTarget, if_pos hin, hn] at hnone
              cases hnone
            rw [List.mem_singleton.mp hm', List.idxOf_append_of_mem (hmem m hm),
              List.idxOf_append_of_notMem hout]
            exact Nat.lt_add_right _ (List.idxOf_lt_length_of_mem (hmem m hm))

theorem pairwise_prepare (od : RTTRecord) (targets : Option (List Node)) :
    (prepare od targets).keys.Pairwise (Sooner od targets []) := by
  have hkeys {f : List (Node × Int) → List (Node × Int)} {d : RTTRecord} :
      (d.mapValues f).keys = d.keys := by
    simp [Dict.keys, Dict.mapValues, Function.comp_def]
  cases targets with
  | none =>
      rw [prepare, sortPeers, hkeys]
      exact pairwise_idxOf od.nodup
  | some nodes =>
      rw [prepare, restrict, hkeys]
      exact pairwise_foldl_addTarget _ nodes

/-! ## rounds -/

/-- **Round lemma.**  The turn is that of the node the election says, and the
record stays in the order of turns. -/
theorem round_elects (hactors : (actorsOf [e]).Nodup) (hnew : ∀ b ∈ actorsOf [e], b ∉ a.keys)
    (hpast : Election od targets past)
    (hleft : Left (prepare od targets) cur (taken od targets past))
    (hturns : cur.keys.Pairwise (Sooner od targets (past.map Prod.fst)))
    (h : round e cur a = some (cur', a')) :
    ∃ n, Election od targets ((e.2.length, n) :: past) ∧
      Left (prepare od targets) cur' (taken od targets ((e.2.length, n) :: past)) ∧
      cur'.keys.Pairwise (Sooner od targets (e.2.length :: past.map Prod.fst)) ∧
      a'.values = a.values ++ (nearestStar od targets e.2.length n).nodes := by
  obtain ⟨target, rest, hpop, hlen, rfl, hitems⟩ := round_eq_some hactors hnew h
  obtain ⟨hleft', htarget, hunused, -⟩ := round_star hleft hpop hlen
  obtain ⟨husable, hnearest⟩ := mem_items_prepare htarget
  have hstar : nearestStar od targets e.2.length target.1 =
      ⟨target.1, target.2.take e.2.length⟩ := by rw [nearestStar, hnearest]
  have hrtt : ∀ t ∈ cur.items, ((t.2.take e.2.length).map Prod.snd).sum =
      (nearestStar od targets e.2.length t.1).rtt := fun t ht => by
    rw [(mem_items_prepare ((hleft t).mp ht).1).2]
    rfl
  have hsorted := Dict.popFirst_eq_some hpop
  -- what the sort leaves is in the order of turns after one round more
  have hturns' : (target :: rest.items).Pairwise fun t t' =>
      Sooner od targets (e.2.length :: past.map Prod.fst) t.1 t'.1 := by
    rw [← hsorted]
    refine (Least.pairwise_insertionSort (List.pairwise_map.mp hturns)).imp_of_mem
      fun {t t'} ht ht' h => ?_
    rw [Least.ThenBy, hrtt t (Dict.mem_items_sortBy.mp ht), hrtt t' (Dict.mem_items_sortBy.mp ht')]
      at h
    exact h
  obtain ⟨hfirst, hrest⟩ := List.pairwise_cons.mp hturns'
  refine ⟨target.1, .turn hpast husable hunused fun m hm hfree hne => ?_, ?_, ?_, ?_⟩
  · obtain ⟨t, ht, rfl⟩ := List.mem_map.mp (mem_keys_prepare.mpr hm)
    have hmem : t ∈ target :: rest.items := by
      rw [← hsorted]
      exact Dict.mem_items_sortBy.mpr ((hleft t).mpr ⟨ht, hfree⟩)
    obtain rfl | hmem := List.mem_cons.mp hmem
    · exact absurd rfl hne
    · exact hfirst t hmem
  · intro t
    rw [hleft' t, taken_cons, hstar, List.mem_append, List.mem_append, or_comm]
  · exact (List.pairwise_map.mpr hrest).sublist ((Dict.foldl_del_sublist _ rest).map Prod.fst)
  · rw [Dict.values, hitems, List.map_append, List.map_snd_zip (by simp [hlen]), hstar]
    rfl

theorem rounds_elect (hactors : (actorsOf graph).Nodup) (hnew : ∀ b ∈ actorsOf graph, b ∉ a.keys)
    (hpast : Election od targets past)
    (hleft : Left (prepare od targets) cur (taken od targets past))
    (hturns : cur.keys.Pairwise (Sooner od targets (past.map Prod.fst)))
    (hvalues : a.values.Perm (taken od targets past)) (h : rounds graph cur a = some a') :
    ∃ past', Election od targets past' ∧
      past'.map Prod.fst = (graph.map (·.2.length)).reverse ++ past.map Prod.fst ∧
      a'.values.Perm (taken od targets past') := by
  induction graph generalizing cur a past with
  | nil =>
      cases h
      exact ⟨past, hpast, rfl, hvalues⟩
  | cons e graph ih =>
      rw [actorsOf_cons] at hactors hnew
      obtain ⟨⟨cur₁, a₁⟩, hround, h⟩ := Option.bind_eq_some_iff.mp h
      obtain ⟨hactors₁, hactors₂, hdisj⟩ := List.nodup_append'.mp hactors
      have hnew' := fun b hb => hnew b (List.mem_append_left _ hb)
      obtain ⟨new, hitems, hkeys⟩ := round_items hactors₁ hnew' hround
      obtain ⟨n, hpast₁, hleft₁, hturns₁, hvalues₁⟩ :=
        round_elects hactors₁ hnew' hpast hleft hturns hround
      have hnew₁ : ∀ b ∈ actorsOf graph, b ∉ a₁.keys := fun b hb =>
        not_mem_keys_of_items hitems (hkeys ▸ fun hmem => hdisj hmem hb)
          (hnew b (List.mem_append_right _ hb))
      have hperm : a₁.values.Perm (taken od targets ((e.2.length, n) :: past)) := by
        rw [hvalues₁, taken_cons]
        exact (hvalues.append_right _).trans List.perm_append_comm
      obtain ⟨past', hpast', hsizes, hperm'⟩ := ih hactors₂ hnew₁ hpast₁ hleft₁ hturns₁ hperm h
      exact ⟨past', hpast', by simp [hsizes], hperm'⟩

/-! ## the assignment -/

/-- An assignment as the scheduler means it: every actor has a node, different
actors have different nodes, and all of them are target nodes. -/
structure Distinct (targets : Option (List Node)) (d : MeasGraph) (assignment : Assignment) :
    Prop where
  assigned : ∀ b ∈ actorsOf d.items, ∃ n, assignment.get? b = some n
  distinct : ∀ b ∈ actorsOf d.items, ∀ c ∈ actorsOf d.items, b ≠ c →
    assignment.get? b ≠ assignment.get? c
  targets : ∀ nodes, targets = some nodes → ∀ b n, assignment.get? b = some n → n ∈ nodes

/-- **The nodes are distinct exactly when no list that is used names a node of
an earlier star.**  That every actor is assigned, to a target node, is so in
any case. -/
theorem schedule_distinct_iff (od : RTTRecord) (targets : Option (List Node)) (d : MeasGraph)
    (assignment : Assignment) (hactors : (actorsOf d.items).Nodup)
    (h : schedule od targets d = some assignment) :
    Distinct targets d assignment ↔ Unshared od targets (sizes d) := by
  have hactors' := (actorsOf_sortGraph d).nodup_iff.mpr hactors
  have hnew : ∀ b ∈ actorsOf (sortGraph d).items, b ∉ (Dict.empty : Assignment).keys := by
    simp [Dict.empty, Dict.keys]
  obtain ⟨new, hitems, hkeys⟩ := rounds_items hactors' hnew h
  obtain ⟨past, hpast, hsizes, hperm⟩ := rounds_elect hactors' hnew .start (left_self _)
    (pairwise_prepare od targets) (.refl _) h
  rw [← sizes_eq, List.map_nil, List.append_nil] at hsizes
  have hmem (b : Actor) : b ∈ assignment.keys ↔ b ∈ actorsOf d.items := by
    rw [Dict.keys, hitems, List.map_append, hkeys, ← (actorsOf_sortGraph d).mem_iff]
    simp [Dict.empty]
  rw [← hpast.nodup_iff hsizes, ← hperm.nodup_iff, Dict.values_nodup_iff]
  constructor
  · intro hdist b hb c hc
    exact hdist.distinct b ((hmem b).mp hb) c ((hmem c).mp hc)
  · intro hdist
    refine ⟨fun b hb => ?_, fun b hb c hc => hdist b ((hmem b).mpr hb) c ((hmem c).mpr hc), ?_⟩
    · exact Option.ne_none_iff_exists'.mp fun hn => Dict.get?_eq_none.mp hn ((hmem b).mpr hb)
    · intro nodes htargets b n hn
      have hvalue := List.mem_map_of_mem (f := Prod.snd) (Dict.mem_items_of_get? hn)
      exact hpast.target (hperm.mem_iff.mp hvalue) nodes htargets

/-- Nodes in two pairs that are close to each other. -/
def twoClusters : RTTRecord where
  items :=
    [("n1".toList, [("n2".toList, 1), ("n3".toList, 9), ("n4".toList, 9)]),
      ("n2".toList, [("n1".toList, 1), ("n3".toList, 9), ("n4".toList, 8)]),
      ("n3".toList, [("n1".toList, 9), ("n2".toList, 9), ("n4".toList, 2)]),
      ("n4".toList, [("n1".toList, 9), ("n2".toList, 8), ("n3".toList, 2)])]
  nodup := by decide

theorem schedule_twoClusters : (schedule twoClusters none twoPairs).map Dict.items =
    some [("a".toList, "n1".toList), ("b".toList, "n2".toList), ("c".toList, "n3".toList),
      ("d".toList, "n4".toList)] := by decide

/-- Node `n2` is the nearest peer of `n1`, and then of `n3`. -/
theorem schedule_twoPairs : (schedule fourNodes none twoPairs).map Dict.items =
    some [("a".toList, "n1".toList), ("b".toList, "n2".toList), ("c".toList, "n3".toList),
      ("d".toList, "n2".toList)] := by decide

/-- Actors `b` and `d` are both sent to `n2`, though `n4` is free. -/
theorem schedule_not_distinct :
    (actorsOf twoPairs.items).Nodup ∧
      ∃ assignment, schedule fourNodes none twoPairs = some assignment ∧
        ¬ Distinct none twoPairs assignment := by
  obtain ⟨assignment, h, hitems⟩ := Option.map_eq_some_iff.mp schedule_twoPairs
  refine ⟨by decide, assignment, h, fun hdist => ?_⟩
  refine hdist.distinct "b".toList (by decide) "d".toList (by decide) (by decide) ?_
  rw [Dict.get?, Dict.get?, hitems]
  decide

/-- In two clusters the pairs stay apart, and among the four nodes they do
not. -/
theorem schedule_distinct_iff_clusters :
    (∃ assignment, schedule twoClusters none twoPairs = some assignment ∧
        Distinct none twoPairs assignment ∧ Unshared twoClusters none (sizes twoPairs)) ∧
      ∃ assignment, schedule fourNodes none twoPairs = some assignment ∧
        ¬ Distinct none twoPairs assignment ∧ ¬ Unshared fourNodes none (sizes twoPairs) := by
  constructor
  · obtain ⟨assignment, h, hitems⟩ := Option.map_eq_some_iff.mp schedule_twoClusters
    have hdist : Distinct none twoPairs assignment := by
      refine ⟨?_, ?_, by simp⟩
      · simp only [Dict.get?, hitems, ← Option.isSome_iff_exists]
        decide
      · simp only [Dict.get?, hitems]
        decide
    exact ⟨assignment, h, hdist, (schedule_distinct_iff _ none twoPairs _ (by decide) h).mp hdist⟩
  · obtain ⟨assignment, h, hitems⟩ := Option.map_eq_some_iff.mp schedule_twoPairs
    have hdist : ¬ Distinct none twoPairs assignment := fun hdist => by
      refine hdist.distinct "b".toList (by decide) "d".toList (by decide) (by decide) ?_
      rw [Dict.get?, Dict.get?, hitems]
      decide
    exact ⟨assignment, h, hdist, fun hunshared =>
      hdist ((schedule_distinct_iff _ none twoPairs _ (by decide) h).mpr hunshared)⟩

end CloudProfiler.Tsc
