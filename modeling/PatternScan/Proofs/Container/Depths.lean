import PatternScan.Container.Depths
import PatternScan.Proofs.Automaton.Distance

/-!
# The breadth-first search for distances

`getElem?_depths`: in a closed table the search gives every state its distance, and none exactly to
the states that no byte string leads to. A layer is expanded target by target (`Expanded`), and
between the layers the known depths are the distances up to that of the layer (`SearchInv`).
-/

namespace PatternScan.Automaton

variable {a : Automaton}

/-! ## Expanding a layer -/

/-- The search has met the states in `targets` and given depth `k` to those that had none. -/
structure Expanded (depths : Array (Option Nat)) (k : Nat) (targets : StateId → Prop)
    (search : Search) : Prop where
  found : ∀ s, s ∈ search.found ↔ targets s ∧ depths[s]? = some none
  depths : ∀ s, search.depths[s]? = if s ∈ search.found then some (some k) else depths[s]?

section Expand

variable {depths : Array (Option Nat)} {k : Nat} {targets : StateId → Prop} {search : Search}

theorem Expanded.reach (h : Expanded depths k targets search) (t : StateId) :
    Expanded depths k (fun s => targets s ∨ s = t) (Search.reach k search t) := by
  have ht := h.depths t
  by_cases hnew : search.depths[t]? = some none
  · -- a new state: it was not found before, so it had no depth
    have hnot : t ∉ search.found := by
      intro hmem
      rw [hnew, if_pos hmem] at ht
      exact nomatch ht
    rw [if_neg hnot] at ht
    have hreach : Search.reach k search t =
        ⟨search.depths.setIfInBounds t (some k), t :: search.found⟩ := by
      unfold Search.reach
      rw [hnew]
    have hlt : t < search.depths.size := by
      by_contra hge
      rw [Array.getElem?_eq_none (Nat.not_lt.1 hge)] at hnew
      exact nomatch hnew
    rw [hreach]
    refine ⟨fun s => ?_, fun s => ?_⟩
    · rw [List.mem_cons, h.found]
      constructor
      · rintro (rfl | ⟨hs, hd⟩)
        · exact ⟨.inr rfl, ht ▸ hnew⟩
        · exact ⟨.inl hs, hd⟩
      · rintro ⟨hs | rfl, hd⟩
        · exact .inr ⟨hs, hd⟩
        · exact .inl rfl
    · simp only [List.mem_cons, Array.getElem?_setIfInBounds, h.depths]
      by_cases hst : t = s
      · subst hst
        simp [hlt]
      · simp [hst, Ne.symm hst]
  · have hreach : Search.reach k search t = search := by
      unfold Search.reach
      split
      · contradiction
      · rfl
    rw [hreach]
    refine ⟨fun s => ?_, h.depths⟩
    rw [h.found]
    refine ⟨fun ⟨hs, hd⟩ => ⟨.inl hs, hd⟩, fun ⟨hs, hd⟩ => ⟨?_, hd⟩⟩
    rcases hs with hs | rfl
    · exact hs
    · by_cases hmem : s ∈ search.found
      · exact ((h.found s).1 hmem).1
      · rw [if_neg hmem, hd] at ht
        exact absurd ht hnew

theorem Expanded.foldl (h : Expanded depths k targets search) (ts : List StateId) :
    Expanded depths k (fun s => targets s ∨ s ∈ ts) (ts.foldl (Search.reach k) search) := by
  induction ts generalizing targets search with
  | nil => simpa using h
  | cons t ts ih =>
    have := ih (h.reach t)
    simpa only [List.foldl_cons, List.mem_cons, or_assoc] using this

theorem mem_next {cell : Cell} {t : StateId} :
    t ∈ cell.next.toArray.toList ↔ ∃ c, cell.step c = t := by
  rw [Array.mem_toList_iff, Array.mem_iff_getElem]
  constructor
  · rintro ⟨i, hi, rfl⟩
    have hi' : i < 256 := by simpa using hi
    refine ⟨UInt8.ofNat i, ?_⟩
    have : (UInt8.ofNat i).toNat = i := UInt8.toNat_ofNat_of_lt hi'
    simp only [Cell.step, this]
    rfl
  · rintro ⟨c, rfl⟩
    exact ⟨c.toNat, by simpa using c.toNat_lt, rfl⟩

/-- Expanding a state meets its targets. -/
theorem Expanded.expand (h : Expanded depths k targets search) (a : Automaton) (s : StateId) :
    Expanded depths k (fun t => targets t ∨ ∃ c, (a.cell s).step c = t)
      (Search.expand a k search s) := by
  have hs := h.foldl (a.cell s).next.toArray.toList
  rw [Array.foldl_toList] at hs
  simp only [mem_next] at hs
  exact hs

theorem Expanded.layer (h : Expanded depths k targets search) (a : Automaton)
    (layer : List StateId) :
    Expanded depths k (fun t => targets t ∨ ∃ s ∈ layer, ∃ c, (a.cell s).step c = t)
      (layer.foldl (Search.expand a k) search) := by
  induction layer generalizing targets search with
  | nil => simpa using h
  | cons s layer ih =>
    have := ih (h.expand a s)
    simpa only [List.foldl_cons, List.mem_cons, exists_eq_or_imp, or_assoc] using this

theorem expanded_nil (depths : Array (Option Nat)) (k : Nat) :
    Expanded depths k (fun _ => False) ⟨depths, []⟩ :=
  ⟨fun s => by simp, fun s => by simp⟩

/-- Expanding a layer meets the targets of its states. -/
theorem expanded_layer (a : Automaton) (depths : Array (Option Nat)) (k : Nat)
    (layer : List StateId) : Expanded depths k (fun t => ∃ s ∈ layer, ∃ c, (a.cell s).step c = t)
      (layer.foldl (Search.expand a k) ⟨depths, []⟩) := by
  simpa only [false_or] using (expanded_nil depths k).layer a layer

end Expand

/-! ## From layer to layer -/

/-- The known depths are the distances up to `k`, and the layer holds the states at distance `k`. -/
structure SearchInv (a : Automaton) (k : Nat) (depths : Array (Option Nat))
    (layer : List StateId) : Prop where
  outside : ∀ s, depths[s]? = none ↔ a.size ≤ s
  depths : ∀ s d, depths[s]? = some (some d) ↔ a.Distance s d ∧ d ≤ k
  layer : ∀ s, s ∈ layer ↔ a.Distance s k

namespace SearchInv

variable {k : Nat} {depths : Array (Option Nat)} {layer : List StateId}

theorem start (ha : a.Closed) : a.SearchInv 0
    ((Array.replicate a.size none).setIfInBounds StateId.root (some 0)) [StateId.root] where
  outside s := by simp
  depths s d := by
    have hd : a.Distance s d ∧ d ≤ 0 ↔ StateId.root = s ∧ d = 0 := by
      constructor
      · rintro ⟨h, hd⟩
        obtain rfl := Nat.le_zero.1 hd
        exact ⟨(Distance.zero_iff.1 h).symm, rfl⟩
      · rintro ⟨rfl, rfl⟩
        exact ⟨Distance.zero_iff.2 rfl, Nat.le_refl _⟩
    rw [hd, Array.getElem?_setIfInBounds, Array.size_replicate]
    by_cases hs : StateId.root = s
    · simp [hs, hs ▸ ha.root_lt_size, eq_comm]
    · simp [hs, Array.getElem?_replicate]
  layer s := by rw [List.mem_singleton, Distance.zero_iff]

/-- A state without a known depth is further away than `k`, if anything leads to it. -/
theorem eq_none_iff (h : a.SearchInv k depths layer) {s : StateId} :
    depths[s]? = some none ↔ s < a.size ∧ ∀ d, a.Distance s d → k < d := by
  have hout := h.outside s
  have hsome := h.depths s
  cases hd : depths[s]? with
  | none =>
    rw [hd] at hout
    exact iff_of_false (by simp) fun h' => Nat.not_lt.2 (hout.1 rfl) h'.1
  | some o =>
    have hs : s < a.size := Nat.not_le.1 fun hle => by
      rw [hout.2 hle] at hd
      exact nomatch hd
    cases o with
    | none =>
      refine iff_of_true rfl ⟨hs, fun d hdist => Nat.not_le.1 fun hle => ?_⟩
      have := (hsome d).2 ⟨hdist, hle⟩
      rw [hd] at this
      exact nomatch this
    | some d =>
      refine iff_of_false (by simp) fun ⟨_, hfar⟩ => ?_
      obtain ⟨hdist, hle⟩ := (hsome d).1 hd
      exact Nat.not_lt.2 hle (hfar d hdist)

theorem step (ha : a.Closed) (h : a.SearchInv k depths layer) :
    a.SearchInv (k + 1) (layer.foldl (Search.expand a (k + 1)) ⟨depths, []⟩).depths
      (layer.foldl (Search.expand a (k + 1)) ⟨depths, []⟩).found.reverse := by
  have hx := expanded_layer a depths (k + 1) layer
  generalize layer.foldl (Search.expand a (k + 1)) ⟨depths, []⟩ = search at hx
  have hfound : ∀ s, s ∈ search.found ↔ a.Distance s (k + 1) := by
    intro s
    rw [hx.found, h.eq_none_iff]
    constructor
    · rintro ⟨⟨u, hu, c, rfl⟩, -, hfar⟩
      have hu := (h.layer u).1 hu
      obtain ⟨w, hw, rfl⟩ := hu.exists_after
      obtain ⟨d, -, hd⟩ := Distance.of_after a (w ++ [c])
      rw [after_append_singleton] at hd
      obtain rfl : d = k + 1 := Nat.le_antisymm (hu.step_le c hd) (hfar d hd)
      exact hd
    · intro hs
      obtain ⟨u, c, hu, hc⟩ := hs.exists_pred
      refine ⟨⟨u, (h.layer u).2 hu, c, hc⟩, hs.lt_size ha, fun d hd => ?_⟩
      rw [hd.unique hs]
      exact Nat.lt_succ_self k
  refine ⟨fun s => ?_, fun s d => ?_, fun s => by rw [List.mem_reverse, hfound]⟩
  · rw [hx.depths, ← h.outside]
    split
    · rename_i hmem
      rw [((hx.found s).1 hmem).2]
      exact iff_of_false (by simp) (by simp)
    · rfl
  · rw [hx.depths]
    split
    · rename_i hmem
      have hs := (hfound s).1 hmem
      constructor
      · rintro ⟨⟩
        exact ⟨hs, Nat.le_refl _⟩
      · rintro ⟨hd, -⟩
        rw [hd.unique hs]
    · rename_i hmem
      rw [h.depths]
      refine and_congr_right fun hd => ⟨Nat.le_succ_of_le, fun hle => ?_⟩
      refine Nat.le_of_lt_succ (Nat.lt_of_le_of_ne hle ?_)
      rintro rfl
      exact hmem ((hfound s).2 hd)

/-- The search ends with all distances: there are no more layers than states. -/
theorem depthsFrom (ha : a.Closed) {layers : Nat} (hlayers : a.size ≤ k + layers)
    (h : a.SearchInv k depths layer) (s : StateId) (d : Nat) :
    (a.depthsFrom layers (k + 1) depths layer)[s]? = some (some d) ↔ a.Distance s d := by
  induction layers generalizing k depths layer with
  | zero =>
    rw [Automaton.depthsFrom, h.depths]
    refine and_iff_left_of_imp fun hd => ?_
    exact Nat.le_trans (Nat.le_of_lt (hd.lt_of_closed ha)) hlayers
  | succ layers ih =>
    cases layer with
    | nil =>
      rw [Automaton.depthsFrom.eq_2 _ _ _ _ (Nat.succ_ne_zero _), h.depths]
      refine and_iff_left_of_imp fun hd => Nat.le_of_not_lt fun hlt => ?_
      -- a state further away would have one at distance `k` before it
      obtain ⟨u, hu⟩ := hd.exists_of_le (Nat.le_of_lt hlt)
      exact List.not_mem_nil ((h.layer u).2 hu)
    | cons u layer =>
      rw [Automaton.depthsFrom]
      exact ih (by omega) (h.step ha)

end SearchInv

/-- **The search gives every state its distance.** -/
theorem getElem?_depths (ha : a.Closed) (s : StateId) (d : Nat) :
    a.depths[s]? = some (some d) ↔ a.Distance s d :=
  (SearchInv.start ha).depthsFrom ha (by omega) s d

end PatternScan.Automaton
