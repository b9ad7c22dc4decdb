import PatternScan.Proofs.Builder
import PatternScan.Proofs.Trie.Links

/-!
# The search for the failure links

`Trie.Searches` is the breadth-first search with its queue: it takes a state off the front, puts its
children at the back and sets their failure links, climbing over links that it has set before. No
climb and no turn of the search is counted. `searches_breadthFirst` says that the search ends, with
`Trie.breadthFirst` as the order of its visits and `Trie.failLinks` as the links;
`isFailureTable_failLinks` says what these are.
-/

namespace PatternScan

namespace Trie

variable {t : Trie} {fail : Array StateId} {s u : StateId} {c : UInt8}

/-! ## The search without bounds -/

/-- The climb for the byte `c` from `s` along the failure links ends at `u`. Behind the root it has
met the sentinel and ends at the root. -/
inductive Climbs (t : Trie) (fail : Array StateId) (c : UInt8) : StateId → StateId → Prop
  | home : Climbs t fail c StateId.sentinel StateId.root
  | edge {s u : StateId} (hne : s ≠ StateId.sentinel) (hs : s < t.size)
      (hc : t.child? s c = some u) : Climbs t fail c s u
  | up {s f u : StateId} (hne : s ≠ StateId.sentinel) (hs : s < t.size)
      (hc : t.child? s c = none) (hf : fail[s]? = some f) (rest : Climbs t fail c f u) :
      Climbs t fail c s u

/-- Linking the targets of the given edges of `s`, one after the other, turns the first array of
links into the second. -/
inductive LinksEdges (t : Trie) (s : StateId) :
    List (UInt8 × StateId) → Array StateId → Array StateId → Prop
  | nil {fail : Array StateId} : LinksEdges t s [] fail fail
  | cons {c : UInt8} {u f v : StateId} {es : List (UInt8 × StateId)} {fail fail' : Array StateId}
      (hf : fail[s]? = some f) (climb : t.Climbs fail c f v) (hu : u < fail.size)
      (rest : LinksEdges t s es (fail.setIfInBounds u v) fail') :
      LinksEdges t s ((c, u) :: es) fail fail'

/-- With a queue and an array of links the search ends; it has visited the states of the first list
and left the links of the second array. -/
inductive Searches (t : Trie) :
    List StateId → Array StateId → List StateId → Array StateId → Prop
  | done {fail : Array StateId} : Searches t [] fail [] fail
  | turn {s : StateId} {queue order : List StateId} {fail fail' fail'' : Array StateId}
      (hs : s < t.size) (links : t.LinksEdges s (t.node s).edges fail fail')
      (rest : Searches t (queue ++ t.children s) fail' order fail'') :
      Searches t (s :: queue) fail (s :: order) fail''

/-! ### The search has one outcome -/

theorem Climbs.deterministic {s u u' : StateId} (h : t.Climbs fail c s u)
    (h' : t.Climbs fail c s u') : u = u' := by
  induction h with
  | home =>
    cases h' with
    | home => rfl
    | edge hne | up hne => exact absurd rfl hne
  | edge hne hs hc =>
    cases h' with
    | home => exact absurd rfl hne
    | edge _ _ hc' => exact Option.some.inj (hc.symm.trans hc')
    | up _ _ hc' => cases hc.symm.trans hc'
  | up hne hs hc hf _ ih =>
    cases h' with
    | home => exact absurd rfl hne
    | edge _ _ hc' => cases hc.symm.trans hc'
    | up _ _ _ hf' rest' =>
      obtain rfl := Option.some.inj (hf.symm.trans hf')
      exact ih rest'

theorem LinksEdges.deterministic {es : List (UInt8 × StateId)} {fail₁ fail₂ : Array StateId}
    (h : t.LinksEdges s es fail fail₁) (h' : t.LinksEdges s es fail fail₂) : fail₁ = fail₂ := by
  induction h with
  | nil =>
    cases h'
    rfl
  | cons hf climb _ _ ih =>
    cases h' with
    | cons hf' climb' _ rest' =>
      obtain rfl := Option.some.inj (hf.symm.trans hf')
      obtain rfl := climb.deterministic climb'
      exact ih rest'

theorem Searches.deterministic {queue order₁ order₂ : List StateId}
    {fail₁ fail₂ : Array StateId} (h : t.Searches queue fail order₁ fail₁)
    (h' : t.Searches queue fail order₂ fail₂) : order₁ = order₂ ∧ fail₁ = fail₂ := by
  induction h generalizing order₂ with
  | done =>
    cases h'
    exact ⟨rfl, rfl⟩
  | turn _ links _ ih =>
    cases h' with
    | turn _ links' rest' =>
      obtain rfl := links.deterministic links'
      obtain ⟨rfl, rfl⟩ := ih rest'
      exact ⟨rfl, rfl⟩

/-! ## The order of the visits -/

/-- The queue alone: the states that are visited, with the children of each put at its end. -/
inductive Visits (t : Trie) : List StateId → List StateId → Prop
  | done : Visits t [] []
  | turn {s : StateId} {queue order : List StateId}
      (rest : Visits t (queue ++ t.children s) order) : Visits t (s :: queue) (s :: order)

/-- A layer at the front of the queue is visited first; its children come behind the rest. -/
theorem Visits.layer {layer rest order : List StateId}
    (h : t.Visits (rest ++ layer.flatMap t.children) order) :
    t.Visits (layer ++ rest) (layer ++ order) := by
  induction layer generalizing rest with
  | nil => simpa using h
  | cons s layer ih =>
    rw [List.cons_append, List.cons_append]
    refine .turn ?_
    rw [List.append_assoc]
    apply ih
    rwa [List.append_assoc, ← List.flatMap_cons]

theorem visits_layersFrom (ht : t.Linked) (n k : Nat) {layer : List StateId}
    (h : t.IsLayer k layer) (hn : ∀ s, t.IsState s → (t.pathTo s).length < k + n) :
    t.Visits layer (t.layersFrom n layer) := by
  induction n generalizing k layer with
  | zero =>
    have hnil : layer = [] := List.eq_nil_iff_forall_not_mem.2 fun s hmem => by
      obtain ⟨hs, hlen⟩ := (h.mem s).1 hmem
      exact absurd (hn s hs) (Nat.not_lt.2 (Nat.le_of_eq hlen.symm))
    rw [hnil]
    exact .done
  | succ n ih =>
    cases layer with
    | nil => exact .done
    | cons s layer =>
      have hdeeper := ih (k + 1) (h.next ht) fun v hv => by
        rw [Nat.add_assoc, Nat.add_comm 1]
        exact hn v hv
      have hvisits : t.Visits (s :: layer ++ []) (t.layersFrom (n + 1) (s :: layer)) :=
        Visits.layer hdeeper
      rwa [List.append_nil] at hvisits

/-- The queue that starts with the root visits the states in breadth-first order. -/
theorem visits_breadthFirst (ht : t.Linked) : t.Visits [StateId.root] t.breadthFirst :=
  visits_layersFrom ht t.size 0 (isLayer_root ht) fun s hs => by
    rw [Nat.zero_add]
    exact Nat.lt_trans (length_pathTo_lt ht hs) hs.2

/-! ## The climbs -/

theorem getElem?_of_linkedUpTo {m : Nat} (hfail : t.LinkedUpTo m fail) (hsize : fail.size = t.size)
    {v : StateId} (hv : t.IsState v) (hm : (t.pathTo v).length ≤ m) :
    fail[v]? = some (t.fallback v) := by
  have hlt : v < fail.size := hsize ▸ hv.2
  have := hfail v hv hm
  rw [Array.getD_eq_getD_getElem?, Array.getElem?_eq_getElem hlt, Option.getD_some] at this
  rw [Array.getElem?_eq_getElem hlt, this]

/-- **The bound of a climb is never met** where the links are final: each step leads to a shorter
suffix, so the climb without the bound ends at the same state. -/
theorem climbs_chase (ht : t.Linked) {m : Nat} (hfail : t.LinkedUpTo m fail)
    (hsize : fail.size = t.size) (c : UInt8) (steps : Nat) {v : StateId} (hv : t.IsState v)
    (hm : (t.pathTo v).length ≤ m) (hsteps : (t.pathTo v).length < steps) :
    t.Climbs fail c v (t.chase fail c steps v) := by
  induction steps generalizing v with
  | zero => exact absurd hsteps (Nat.not_lt_zero _)
  | succ steps ih =>
    have hne : v ≠ StateId.sentinel := Nat.ne_of_gt hv.1
    unfold chase
    rw [if_neg hne]
    cases hc : t.child? v c with
    | some u => exact .edge hne hv.2 hc
    | none =>
      simp only
      rw [hfail v hv hm]
      refine .up hne hv.2 hc (getElem?_of_linkedUpTo hfail hsize hv hm) ?_
      by_cases hr : v = StateId.root
      · rw [hr, fallback_root, chase_sentinel]
        exact .home
      · have hlt := length_pathTo_fallback_lt ht hv hr
        exact ih (isState_fallback ht hr) (by omega) (by omega)

/-- The climb for an edge of a state, from its final link on, ends in the fallback of the child. -/
theorem climbs_fallback (ht : t.Linked) (hs : t.IsState s)
    (hfail : t.LinkedUpTo (t.pathTo s).length fail) (hsize : fail.size = t.size)
    (hc : t.child? s c = some u) : t.Climbs fail c (t.fallback s) (t.fallback u) := by
  rw [← chase_fail_eq ht hs hfail hc, hfail s hs (Nat.le_refl _)]
  by_cases hr : s = StateId.root
  · rw [hr, fallback_root, chase_sentinel]
    exact .home
  · have hlt := length_pathTo_fallback_lt ht hs hr
    apply climbs_chase ht hfail hsize c _ (isState_fallback ht hr) (Nat.le_of_lt hlt)
    exact Nat.lt_trans hlt (Nat.lt_trans (length_pathTo_lt ht hs) hs.2)

theorem linksEdges_linkChildren (ht : t.Linked) (hs : t.IsState s)
    (hfail : t.LinkedUpTo (t.pathTo s).length fail) (hsize : fail.size = t.size) :
    t.LinksEdges s (t.node s).edges fail (t.linkChildren fail s) := by
  unfold linkChildren
  have hsub : ∀ e ∈ (t.node s).edges, t.child? s e.1 = some e.2 := fun e he =>
    (Node.lookup_eq_some_iff (ht.ascending s)).2 he
  generalize (t.node s).edges = es at hsub
  induction es generalizing fail with
  | nil => exact .nil
  | cons e es ih =>
    obtain ⟨c, u⟩ := e
    have hc : t.child? s c = some u := hsub (c, u) (by simp)
    have hu : u < fail.size := hsize ▸ (isState_of_child? ht hc).2
    rw [List.foldl_cons]
    refine .cons (getElem?_of_linkedUpTo hfail hsize hs (Nat.le_refl _))
      (climbs_fallback ht hs hfail hsize hc) hu ?_
    simp only [chase_fail_eq ht hs hfail hc]
    exact ih (hfail.set u) (by rw [Array.size_setIfInBounds, hsize])
      fun e he => hsub e (by simp [he])

/-! ## The whole search -/

/-- In breadth-first order every state is met with the links up to its depth final, so the links of
its children can be set. -/
theorem linksEdges_breadthFirst (ht : t.Linked) {start : Array StateId}
    (hstart : t.FailInv [] start) :
    ∀ done s, done ++ [s] <+: t.breadthFirst → t.LinksEdges s (t.node s).edges
      (done.foldl t.linkChildren start) ((done ++ [s]).foldl t.linkChildren start) := by
  refine (foldl_breadthFirst ht (f := t.linkChildren) (b := start)
    (P := fun met fail => t.FailInv met fail ∧ fail = met.foldl t.linkChildren start ∧
      ∀ done s, done ++ [s] <+: met → t.LinksEdges s (t.node s).edges
        (done.foldl t.linkChildren start) ((done ++ [s]).foldl t.linkChildren start))
    ⟨hstart, rfl, fun done s h => ?_⟩ ?_).2.2
  · exact absurd (List.prefix_nil.1 h) (List.append_ne_nil_of_right_ne_nil _ (List.cons_ne_nil _ _))
  · rintro met s fail hs - - hdone ⟨hinv, rfl, hmet⟩
    refine ⟨hinv.step ht hs hdone, by rw [List.foldl_concat], fun done v h => ?_⟩
    rcases List.prefix_concat_iff.1 h with heq | h
    · obtain ⟨rfl, hv⟩ := List.append_inj' heq rfl
      obtain rfl := List.singleton_inj.1 hv
      rw [List.foldl_concat]
      exact linksEdges_linkChildren ht hs (hinv.linkedUpTo ht hdone) hinv.size
    · exact hmet done v h

theorem Visits.searches {queue order : List StateId} (h : t.Visits queue order)
    (hsize : ∀ s ∈ order, s < t.size)
    (hlinks : ∀ done s, done ++ [s] <+: order → t.LinksEdges s (t.node s).edges
      (done.foldl t.linkChildren fail) ((done ++ [s]).foldl t.linkChildren fail)) :
    t.Searches queue fail order (order.foldl t.linkChildren fail) := by
  induction h generalizing fail with
  | done => exact .done
  | @turn s queue order _ ih =>
    refine .turn (hsize s (by simp)) (hlinks [] s (by simp)) ?_
    refine ih (fun v hv => hsize v (by simp [hv])) fun done v h => ?_
    exact hlinks (s :: done) v (List.cons_prefix_cons.2 ⟨rfl, h⟩)

/-- **The search ends** with the breadth-first order and the failure links. -/
theorem searches_breadthFirst (ht : t.Linked) : t.Searches [StateId.root]
    (Array.replicate t.size StateId.sentinel) t.breadthFirst t.failLinks :=
  (visits_breadthFirst ht).searches (fun _ hs => ((mem_breadthFirst ht).1 hs).2)
    (linksEdges_breadthFirst ht failInv_start)

/-! ## What the search has found -/

/-- The state `u` spells the longest proper suffix of the string of `s` that the trie spells. -/
structure IsFailure (t : Trie) (s u : StateId) : Prop where
  isState : t.IsState u
  suffix : t.pathTo u <:+ t.pathTo s
  ne : t.pathTo u ≠ t.pathTo s
  longest : ∀ w, t.Contains w → w <:+ t.pathTo s → w ≠ t.pathTo s →
    w.length ≤ (t.pathTo u).length

theorem isFailure_fallback (ht : t.Linked) (hs : t.IsState s) (hr : s ≠ StateId.root) :
    t.IsFailure s (t.fallback s) := by
  have hshort := length_pathTo_fallback_lt ht hs hr
  obtain ⟨c, w, hpath⟩ := List.exists_cons_of_ne_nil (pathTo_ne_nil ht hs hr)
  have hback : t.fallback s = t.home w := by rw [fallback, if_neg hr, hpath, List.tail_cons]
  refine ⟨isState_fallback ht hr, ?_, fun h => ?_, fun v hv hsuffix hne => ?_⟩
  · rw [hback, hpath]
    exact (home_spec ht w).2.trans (List.suffix_cons c w)
  · exact absurd (congrArg List.length h) (Nat.ne_of_lt hshort)
  · rw [hpath] at hsuffix hne
    have hvw : v <:+ w := (List.suffix_cons_iff.1 hsuffix).resolve_left hne
    rw [hback]
    exact (suffix_pathTo_home ht hv hvw).length_le

/-- Where only the empty suffix is in the trie, the failure leads to the root. -/
theorem IsFailure.eq_root (ht : t.Linked) (h : t.IsFailure s u)
    (hnil : ∀ w, t.Contains w → w <:+ t.pathTo s → w ≠ t.pathTo s → w = []) :
    u = StateId.root := by
  apply pathTo_injective ht h.isState (isState_root ht)
  rw [pathTo_root]
  exact hnil _ ((contains_iff ht).2 ⟨u, h.isState, rfl⟩) h.suffix h.ne

theorem IsFailure.length_lt (h : t.IsFailure s u) :
    (t.pathTo u).length < (t.pathTo s).length :=
  Nat.lt_of_le_of_ne h.suffix.length_le fun hlen => h.ne (h.suffix.eq_of_length hlen)

/-- The failure links of a trie and an order to visit its states in. -/
structure IsFailureTable (t : Trie) (order : List StateId) (fail : Array StateId) : Prop where
  size : fail.size = t.size
  root : fail[StateId.root]? = some StateId.sentinel
  /-- The other states have their failure as link; it is the root if there is no other suffix. -/
  failure : ∀ s, t.IsState s → s ≠ StateId.root → ∃ u, fail[s]? = some u ∧ t.IsFailure s u ∧
    ((∀ w, t.Contains w → w <:+ t.pathTo s → w ≠ t.pathTo s → w = []) → u = StateId.root)
  head : order.head? = some StateId.root
  mem : ∀ s, s ∈ order ↔ t.IsState s
  nodup : order.Nodup
  sorted : order.Pairwise fun s v => (t.pathTo s).length ≤ (t.pathTo v).length
  /-- The target of a link is visited before its source. -/
  before : ∀ s u, t.IsState s → s ≠ StateId.root → fail[s]? = some u →
    order.idxOf u < order.idxOf s

theorem Visits.head?_eq {queue order : List StateId} (h : t.Visits queue order) :
    order.head? = queue.head? := by
  cases h <;> rfl

/-- In breadth-first order a shallower state comes before a deeper one. -/
theorem idxOf_breadthFirst_lt (ht : t.Linked) (hu : t.IsState u) (hs : t.IsState s)
    (hlt : (t.pathTo u).length < (t.pathTo s).length) :
    t.breadthFirst.idxOf u < t.breadthFirst.idxOf s := by
  have hiu := List.idxOf_lt_length_of_mem ((mem_breadthFirst ht).2 hu)
  have his := List.idxOf_lt_length_of_mem ((mem_breadthFirst ht).2 hs)
  refine Nat.lt_of_not_le fun hle => Nat.not_le.2 hlt ?_
  rcases Nat.eq_or_lt_of_le hle with heq | hbehind
  · exact Nat.le_of_eq (by rw [(List.idxOf_inj ((mem_breadthFirst ht).2 hs)).1 heq])
  · have := List.pairwise_iff_getElem.1 (pairwise_breadthFirst ht) _ _ his hiu hbehind
    rwa [List.getElem_idxOf, List.getElem_idxOf] at this

theorem getElem?_failLinks (ht : t.Linked) (hs : t.IsState s) :
    t.failLinks[s]? = some (t.fallback s) :=
  getElem?_of_linkedUpTo (linkedUpTo_failLinks ht (t.pathTo s).length) (failInv_failLinks ht).size
    hs (Nat.le_refl _)

/-- **The failure table** of a trie. -/
theorem isFailureTable_failLinks (ht : t.Linked) :
    t.IsFailureTable t.breadthFirst t.failLinks := by
  refine ⟨(failInv_failLinks ht).size, ?_, fun s hs hr => ?_, (visits_breadthFirst ht).head?_eq,
    fun s => mem_breadthFirst ht, nodup_breadthFirst ht, pairwise_breadthFirst ht,
    fun s u hs hr hu => ?_⟩
  · rw [getElem?_failLinks ht (isState_root ht), fallback_root]
  · have hfailure := isFailure_fallback ht hs hr
    exact ⟨_, getElem?_failLinks ht hs, hfailure, hfailure.eq_root ht⟩
  · obtain rfl := Option.some.inj ((getElem?_failLinks ht hs).symm.trans hu)
    have hfailure := isFailure_fallback ht hs hr
    exact idxOf_breadthFirst_lt ht hfailure.isState hs hfailure.length_lt

end Trie

namespace Builder

/-- **The search for the failure links of a builder's trie ends**, and in one way only: it has set
the links to the longest proper suffixes, and has met each state once, the shallower ones first. -/
theorem searches_addAll (ps : List Pattern) :
    let t := (({} : Builder).addAll ps).trie
    let start := Array.replicate t.size StateId.sentinel
    t.Searches [StateId.root] start t.breadthFirst t.failLinks ∧
    (∀ order fail, t.Searches [StateId.root] start order fail →
      order = t.breadthFirst ∧ fail = t.failLinks) ∧
    t.IsFailureTable t.breadthFirst t.failLinks := by
  intro t start
  have ht : t.Linked := (collects_addAll ps).holds.linked
  have hends : t.Searches [StateId.root] start t.breadthFirst t.failLinks :=
    Trie.searches_breadthFirst ht
  exact ⟨hends, fun order fail h => h.deterministic hends, Trie.isFailureTable_failLinks ht⟩

/-- In the trie of `he` and `she` the state of `she` fails to that of `he`. -/
theorem searches_addAll_heShe :
    let t := (({} : Builder).addAll [[104, 101], [115, 104, 101]]).trie
    t.breadthFirst = [1, 2, 4, 3, 5, 6] ∧ t.failLinks = #[0, 0, 1, 1, 1, 2, 3] ∧
      t.IsFailure 6 3 := by
  intro t
  have horder : t.breadthFirst = [1, 2, 4, 3, 5, 6] := by decide +kernel
  have hlinks : t.failLinks = #[0, 0, 1, 1, 1, 2, 3] := by decide +kernel
  have hstate : t.IsState 6 := ⟨by decide, by decide +kernel⟩
  have htable := (searches_addAll [[104, 101], [115, 104, 101]]).2.2
  obtain ⟨u, hu, hfailure, -⟩ := htable.failure 6 hstate (by decide)
  have hlink : t.failLinks[6]? = some 3 := by rw [hlinks]; rfl
  obtain rfl : 3 = u := Option.some.inj (hlink.symm.trans hu)
  exact ⟨horder, hlinks, hfailure⟩

end Builder

end PatternScan
