import PatternScan.Proofs.Container.Safety

/-!
# What the check of the lengths decides

The check of the lengths searches the table once and looks at two lengths per state.
`badLength?_isSome_iff` says what it decides about all texts: in a table that passes the other
checks it finds a state exactly if some walk reports a match that is longer than the text read so
far. One direction is the safety of the tables without a defect; for the other the shortest way to
the state that was found is the text (`exists_event_of_badLength?`).
-/

namespace PatternScan.Automaton

variable {a : Automaton}

/-! ## The state that is found -/

/-- The check names a state, its longest match and its distance, which is smaller. -/
theorem exists_distance_of_badLength? (ha : a.Closed) {defect : Container.Defect}
    (h : a.badLength? = some defect) : ∃ s d, a.Distance s d ∧ d < a.longestMatch (a.cell s) ∧
      defect = .matchTooLong s (a.longestMatch (a.cell s)) d := by
  obtain ⟨s, -, hs⟩ := List.exists_of_findSome?_eq_some h
  cases hd : a.depths.getD s none with
  | none =>
    rw [hd] at hs
    exact nomatch hs
  | some d =>
    rw [hd, Option.bind_eq_bind, Option.bind_some] at hs
    by_cases hlt : d < a.longestMatch (a.cell s)
    · rw [if_pos hlt] at hs
      exact ⟨s, d, (getD_depths ha).1 hd, hlt, (Option.some.inj hs).symm⟩
    · rw [if_neg hlt] at hs
      exact nomatch hs

/-- The reserved states report nothing. -/
theorem Regular.longestMatch_root (h : a.Regular) :
    a.longestMatch (a.cell StateId.root) = 0 := by
  obtain ⟨hlen, hlink⟩ := h.reserved StateId.root (.inr rfl)
  unfold longestMatch
  rw [hlen, if_pos hlink]
  rfl

/-- The longest match of a state is reported in it: by the state itself or by its first link. -/
theorem exists_reported_of_longestMatch {s : StateId} (hs : s < a.size)
    (hpos : 0 < a.longestMatch (a.cell s)) :
    ∃ v ∈ a.reported s, (a.cell v).len = a.longestMatch (a.cell s) := by
  obtain ⟨steps, hsteps⟩ : ∃ steps, a.size = steps + 1 :=
    Nat.exists_eq_add_one.2 (Nat.zero_lt_of_lt hs)
  unfold longestMatch at hpos ⊢
  rcases Nat.le_total (a.cell s).len (if (a.cell s).link = StateId.sentinel then 0
    else (a.cell (a.cell s).link).len) with hle | hle
  · rw [Nat.max_eq_right hle] at hpos ⊢
    by_cases hlink : (a.cell s).link = StateId.sentinel
    · rw [if_pos hlink] at hpos
      exact absurd hpos (Nat.lt_irrefl 0)
    · rw [if_neg hlink]
      refine ⟨(a.cell s).link, List.mem_append_right _ ?_, rfl⟩
      rw [hsteps, chain, if_neg hlink]
      exact List.mem_cons_self
  · rw [Nat.max_eq_left hle] at hpos ⊢
    refine ⟨s, List.mem_append_left _ ?_, rfl⟩
    rw [if_neg (Nat.ne_of_gt hpos)]
    exact List.mem_singleton_self s

/-! ## A text for it -/

/-- What is reported in the state that a string leads to is an event at the last byte of it. -/
theorem eventAt_mem_events {w : List UInt8} {v : StateId} (hw : w ≠ [])
    (hv : v ∈ a.reported (a.after w)) : a.eventAt (w.length - 1) v ∈ a.events ⟨⟨w⟩⟩ := by
  have hlen : 0 < w.length := List.length_pos_iff.2 hw
  rw [← Array.mem_toList_iff, toList_events, mem_trace]
  refine ⟨w.length - 1, Nat.sub_lt hlen Nat.one_pos, v, ?_, rfl⟩
  rwa [Nat.sub_add_cancel hlen, List.take_length]

/-- **A state that is found is overstepped by a text**: one of the shortest that lead to it, with
the length that the check names. -/
theorem exists_event_of_badLength? (h : a.Regular) (hsize : StateId.root < a.size)
    {defect : Container.Defect} (hdefect : a.badLength? = some defect) :
    ∃ text : ByteArray, ∃ e ∈ a.events text, e.last + 1 = text.size ∧ text.size < e.len ∧
      defect = .matchTooLong (a.after text.data.toList) e.len text.size := by
  obtain ⟨s, d, hd, hlt, rfl⟩ := exists_distance_of_badLength? (h.closed hsize) hdefect
  obtain ⟨v, hv, hlen⟩ := exists_reported_of_longestMatch (hd.lt_size (h.closed hsize))
    (Nat.lt_of_le_of_lt (Nat.zero_le d) hlt)
  obtain ⟨w, rfl, rfl⟩ := hd.exists_after
  have hw : w ≠ [] := by
    rintro rfl
    rw [after_nil, h.longestMatch_root] at hlt
    exact Nat.not_lt_zero _ hlt
  refine ⟨⟨⟨w⟩⟩, _, eventAt_mem_events hw hv, ?_, ?_, ?_⟩
  · exact Nat.sub_add_cancel (List.length_pos_iff.2 hw)
  · rw [eventAt, hlen]
    exact hlt
  · rw [eventAt, hlen]
    rfl

/-! ## The check -/

/-- **The check of the lengths fails exactly if some text has an event that is longer than the text
up to its last byte**, in a table that passes the other checks. There all walks come to an end, and
what they report are first parts of the events. -/
theorem badLength?_isSome_iff (hsize : StateId.root < a.size) (htarget : a.badTarget? = none)
    (hreserved : a.badReserved? = none) (hlink : a.badLink? = none) :
    a.defect? = a.badLength? ∧
      (a.badLength?.isSome ↔ ∃ text, ∃ e ∈ a.events text, e.last + 1 < e.len) ∧
      ∀ {σ : Type} (f : σ → Event → σ × Bool) (x : σ) (text : ByteArray), ∃ es,
        a.Run (fun x e => some (f x e)) text x es (a.walk f text x) ∧
          es <+: (a.events text).toList := by
  have h : a.Regular := regular_iff.2 ⟨htarget, hreserved, hlink⟩
  have hdefect : a.defect? = a.badLength? := by
    unfold defect?
    rw [htarget, hreserved, hlink]
    rfl
  refine ⟨hdefect, ⟨fun hsome => ?_, ?_⟩, fun f x text => ?_⟩
  · obtain ⟨defect, hbad⟩ := Option.isSome_iff_exists.1 hsome
    obtain ⟨text, e, he, hlast, hlt, -⟩ := exists_event_of_badLength? h hsize hbad
    exact ⟨text, e, he, hlast.trans_lt hlt⟩
  · rintro ⟨text, e, he, hlt⟩
    by_contra hsome
    rw [Option.not_isSome_iff_eq_none, ← hdefect, defect?_eq_none_iff hsize] at hsome
    rw [← Array.mem_toList_iff, toList_events] at he
    exact Nat.not_lt.2 (hsome.mem_trace hsize he).2.1 hlt
  · rw [toList_events]
    exact ⟨_, h.run hsize (fun _ _ _ => rfl) x, (fed_eq f x (a.trace text)).1⟩

/-! ## A match that is longer than the way to it -/

/-- The row of a state that two bytes lead away from, the second one to the state 4. -/
def rowAB (onA : StateId) : Vector StateId 256 :=
  Vector.ofFn fun c => if c = 97 then onA else if c = 98 then 4 else StateId.root

/-- A table in which one byte leads to a state that links to a match of two bytes. -/
def linkTooLong : Automaton :=
  ⟨#[{ next := rowAB 1 }, { next := rowAB 2 }, { next := rowAB 3, len := 1 },
    { next := rowAB 3, len := 2, link := 2, pattern := 1 }, { next := rowAB 1, link := 3 }]⟩

theorem regular_linkTooLong : linkTooLong.Regular := by
  have hrow : ∀ onA : StateId, onA ≠ StateId.sentinel → onA < 5 → ∀ c : UInt8,
      (rowAB onA).get ⟨c.toNat, c.toNat_lt⟩ ≠ StateId.sentinel ∧
        (rowAB onA).get ⟨c.toNat, c.toNat_lt⟩ < 5 := by
    intro onA hne hlt c
    rw [show (rowAB onA).get ⟨c.toNat, c.toNat_lt⟩ = _ from Vector.getElem_ofFn _]
    split
    · exact ⟨hne, hlt⟩
    · split <;> decide
  refine ⟨fun s hs => ?_, ?_, fun s hs => ?_⟩
  · match s, hs with
    | 0, _ | 4, _ => exact hrow 1 (by decide) (by decide)
    | 1, _ => exact hrow 2 (by decide) (by decide)
    | 2, _ | 3, _ => exact hrow 3 (by decide) (by decide)
  · rintro s (rfl | rfl) <;> exact ⟨rfl, rfl⟩
  · match s, hs with
    | 0, _ | 1, _ | 2, _ => exact fun hlink => absurd rfl hlink
    | 3, _ => exact fun _ => (by decide : 2 < 5 ∧ 0 < 1 ∧ (0 < 2 → 1 < 2))
    | 4, _ => exact fun _ => (by decide : 3 < 5 ∧ 0 < 2 ∧ (0 < 0 → 2 < 0))

theorem badLength?_linkTooLong : (StateId.root < linkTooLong.size ∧
    linkTooLong.badTarget? = none ∧ linkTooLong.badReserved? = none ∧
      linkTooLong.badLink? = none) ∧ linkTooLong.badLength?.isSome := by
  have hsize : StateId.root < linkTooLong.size := by decide
  obtain ⟨htarget, hreserved, hlink⟩ := regular_iff.1 regular_linkTooLong
  have hevent : ⟨0, 2, 1⟩ ∈ linkTooLong.events ⟨#[98]⟩ :=
    eventAt_mem_events (by decide) (by decide +kernel : 3 ∈ linkTooLong.reported
      (linkTooLong.after [98]))
  refine ⟨⟨hsize, htarget, hreserved, hlink⟩, ?_⟩
  exact (badLength?_isSome_iff hsize htarget hreserved hlink).2.1.2 ⟨_, _, hevent, by decide⟩

end PatternScan.Automaton
