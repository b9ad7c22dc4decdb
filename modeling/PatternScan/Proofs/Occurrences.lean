import PatternScan.Proofs.Builder
import PatternScan.Proofs.Bytes
import PatternScan.Proofs.Trie.Table

/-!
# The occurrences of a list of patterns

`Builder.occurrences` is the naive search: it compares every part of the text with the patterns.
`walk_automatonOf` says that the automaton of the patterns reports exactly this list, in this order.
-/

namespace PatternScan

namespace Trie

open Builder (lastIndex? lastIndex?_isSome)

variable {t : Trie} {ps : List Pattern}

/-- The event of a state that spells a string is there exactly if the string is a pattern. -/
theorem Holds.toList_filter (ht : t.Holds ps) (last : Nat) {w : Pattern} (hw : w ≠ []) :
    ((t.follow? StateId.root w).filter fun s => (t.node s).accepting).toList.map
        (t.compile.eventAt last) =
      ((lastIndex? ps w).map (Event.mk last w.length ·)).toList := by
  by_cases hc : t.Contains w
  · obtain ⟨s, hs, rfl⟩ := (contains_iff ht.linked).1 hc
    have hlen := ht.marked.len s hs
    rw [follow?_pathTo ht.linked hs, Option.filter_some, Node.accepting]
    by_cases hmem : t.pathTo s ∈ ps
    · rw [if_pos hmem] at hlen
      rw [hlen, ht.marked.pattern s hs hmem]
      simp [List.length_pos_iff.2 hw, Automaton.eventAt, cell_compile hs.2, hlen]
    · rw [if_neg hmem] at hlen
      rw [hlen, Option.not_isSome_iff_eq_none.1 (mt lastIndex?_isSome.1 hmem)]
      rfl
  · have hmem : w ∉ ps := fun h => hc (ht.contains_of_mem w h)
    rw [Option.not_isSome_iff_eq_none.1 hc,
      Option.not_isSome_iff_eq_none.1 (mt lastIndex?_isSome.1 hmem)]
    rfl

/-- The ends of the suffixes of a string are the events of its suffixes that are patterns. -/
theorem Holds.map_ends (ht : t.Holds ps) (last : Nat) (w : Pattern) :
    (t.ends w).map (t.compile.eventAt last) =
      (List.range' 1 w.length).reverse.filterMap fun len =>
        (lastIndex? ps (w.drop (w.length - len))).map (Event.mk last len ·) := by
  induction w with
  | nil => rfl
  | cons c w ih =>
    rw [ends, List.map_append, ht.toList_filter last (List.cons_ne_nil c w), ih, List.length_cons,
      List.range'_1_concat, List.reverse_append, List.reverse_singleton, List.singleton_append,
      List.filterMap_cons, show w.length + 1 - (1 + w.length) = 0 by omega, List.drop_zero,
      Nat.add_comm 1 w.length]
    have hrest : (List.range' 1 w.length).reverse.filterMap (fun len =>
          (lastIndex? ps ((c :: w).drop (w.length + 1 - len))).map (Event.mk last len ·)) =
        (List.range' 1 w.length).reverse.filterMap (fun len =>
          (lastIndex? ps (w.drop (w.length - len))).map (Event.mk last len ·)) := by
      refine List.filterMap_congr fun len hlen => ?_
      have := (List.mem_range'_1.1 (List.mem_reverse.1 hlen)).2
      rw [show w.length + 1 - len = (w.length - len) + 1 by omega, List.drop_succ_cons]
    rw [hrest]
    cases lastIndex? ps (c :: w) <;> rfl

end Trie

namespace Builder

/-- The occurrences of the patterns in a text as a naive search finds them: for every end offset
and every length, the longest first, the bytes that equal a pattern are an occurrence of it, under
the last index it received. -/
def occurrences (ps : List Pattern) (text : ByteArray) : List Event :=
  (List.range text.size).flatMap fun last =>
    (List.range' 1 (last + 1)).reverse.filterMap fun len =>
      (lastIndex? (numbered ps) (text.extract (last + 1 - len) (last + 1)).data.toList).map
        (Event.mk last len ·)

theorem mem_occurrences {ps : List Pattern} {text : ByteArray} {e : Event} :
    e ∈ occurrences ps text ↔ e.last < text.size ∧ (1 ≤ e.len ∧ e.len ≤ e.last + 1) ∧
      lastIndex? (numbered ps) (text.extract (e.last + 1 - e.len) (e.last + 1)).data.toList =
        some e.pattern := by
  simp only [occurrences, List.mem_flatMap, List.mem_range, List.mem_filterMap, List.mem_reverse,
    List.mem_range'_1, Option.map_eq_some_iff]
  constructor
  · rintro ⟨last, hlast, len, hlen, index, hindex, rfl⟩
    exact ⟨hlast, ⟨hlen.1, by simp only; omega⟩, hindex⟩
  · rintro ⟨hlast, hlen, hindex⟩
    exact ⟨e.last, hlast, e.len, ⟨hlen.1, by omega⟩, e.pattern, hindex, rfl⟩

theorem pairwise_occurrences (ps : List Pattern) (text : ByteArray) :
    (occurrences ps text).Pairwise Event.Before := by
  refine List.pairwise_flatMap.2 ⟨fun last _ => ?_, List.pairwise_lt_range.imp ?_⟩
  · refine List.pairwise_filterMap.2 (List.pairwise_reverse.2 ?_)
    refine List.Pairwise.imp (fun {len len'} hlt e he e' he' => ?_) List.pairwise_lt_range'
    obtain ⟨_, _, rfl⟩ := Option.map_eq_some_iff.1 he
    obtain ⟨_, _, rfl⟩ := Option.map_eq_some_iff.1 he'
    exact .inr ⟨rfl, hlt⟩
  · intro last last' hlt e he e' he'
    obtain ⟨_, _, he⟩ := List.mem_filterMap.1 he
    obtain ⟨_, _, he'⟩ := List.mem_filterMap.1 he'
    obtain ⟨_, _, rfl⟩ := Option.map_eq_some_iff.1 he
    obtain ⟨_, _, rfl⟩ := Option.map_eq_some_iff.1 he'
    exact .inl hlt

/-- The events of the compiled automaton of a builder are the naive occurrences. -/
theorem trace_automatonOf (ps : List Pattern) (text : ByteArray) :
    (automatonOf ps).trace text = occurrences ps text := by
  have ht := (collects_addAll ps).holds
  have hroot := ht.accepting_root (not_nil_mem_numbered ps)
  unfold automatonOf build
  rw [Automaton.trace, occurrences]
  refine List.flatMap_congr fun last hlast => ?_
  have hlen : (text.data.toList.take (last + 1)).length = last + 1 :=
    List.length_take_of_le (Nat.succ_le_of_lt (List.mem_range.1 hlast))
  rw [Automaton.eventsAfter, Trie.reported_compile ht.linked hroot, ht.map_ends, hlen]
  simp only [toList_extract, Nat.add_sub_cancel]

/-- **The automaton of a list of patterns reports exactly the naive occurrences**, in ascending
order of their ends and by decreasing length at one end: this is the sequence of calls of every
callback that never stops, and what a search for all occurrences collects. Every occurrence lies in
the text, and its bytes there are the pattern that has its index and no later one. -/
theorem walk_automatonOf (ps : List Pattern) (text : ByteArray) :
    (∀ {σ : Type} (g : σ → Event → σ) (x : σ),
      (automatonOf ps).walk (fun x e => (g x e, true)) text x =
        (occurrences ps text).foldl g x) ∧
    ((automatonOf ps).findAll text).toList =
      (occurrences ps text).map (fun e => ⟨e.last + 1 - e.len, e.len, e.pattern⟩) ∧
    (occurrences ps text).Pairwise Event.Before ∧
    ∀ o ∈ (automatonOf ps).findAll text, o.stop ≤ text.size ∧
      (numbered ps)[o.pattern]? = some (o.bytes text).data.toList ∧
      ∀ j, o.pattern < j → (numbered ps)[j]? ≠ some (o.bytes text).data.toList := by
  refine ⟨fun g x => ?_, ?_, pairwise_occurrences ps text, fun o ho => ?_⟩
  · rw [Automaton.walk_eq_foldl, trace_automatonOf]
  · rw [Automaton.toList_findAll, trace_automatonOf]
    rfl
  · rw [Array.mem_def, Automaton.toList_findAll, trace_automatonOf, List.mem_map] at ho
    obtain ⟨e, he, rfl⟩ := ho
    obtain ⟨hlast, hlen, hindex⟩ := mem_occurrences.1 he
    have hstop : e.occurrence.stop = e.last + 1 := by
      simp only [Event.occurrence, Occurrence.stop]
      omega
    rw [Occurrence.bytes, hstop]
    exact ⟨hlast, lastIndex?_eq_some_iff.1 hindex⟩

/-- Overlapping occurrences, and a pattern that was added twice. -/
theorem walk_automatonOf_overlapping :
    ((automatonOf [[1, 1], [1], [], [1]]).findAll ⟨#[1, 1]⟩).toList =
      [⟨0, 1, 2⟩, ⟨0, 2, 0⟩, ⟨1, 1, 2⟩] :=
  (walk_automatonOf _ _).2.1.trans (by decide +kernel)

end Builder

end PatternScan
