import PatternScan.Proofs.Compression.Stored
import PatternScan.Proofs.Container.Safety
import PatternScan.Proofs.Trie.Sound

/-!
# Encoding and decoding

`decode_encode`: every automaton that can be had, be it built from patterns, decoded from a file or
a copy of such a one, is what its container is decoded as. Two things have to hold of it: its words
are 64-bit words, so that the payload holds the table, and the table is sound, so that the check
lets it pass. A builder's table is sound whatever its patterns are.
-/

namespace PatternScan.Container

/-- An automaton that its container can hold and that the check lets pass. -/
structure Storable (a : Automaton) : Prop where
  root_lt : StateId.root < a.size
  cells_lt : 256 * a.size < 2 ^ 64
  fits : Fits a
  sound : a.Sound

/-- **A container is decoded as what it was made from.** -/
theorem Storable.decode_encode {a : Automaton} (h : Storable a) : decode (encode a) = .ok a := by
  unfold decode encode
  rw [Compression.Gzip.expand_pack]
  apply decodePayload_payload h.root_lt h.cells_lt h.fits
  exact (Automaton.defect?_eq_none_iff h.root_lt).2 h.sound

theorem storable_of_decode {file : ByteArray} {a : Automaton} (h : decode file = .ok a) :
    Storable a := by
  obtain ⟨hroot, hsound⟩ := sound_of_decodePayload h
  obtain ⟨-, n, -, hn, rfl⟩ := readTable_eq_ok_iff.1 (decodePayload_eq_ok_iff.1 h).1
  refine ⟨hroot, ?_, fits_tableAt hn, hsound⟩
  simpa using hn.cells_lt

/-- In a sound table only lengths and indices could be too large for a word. -/
theorem fits_of_sound {a : Automaton} (h : a.Sound) (hsize : a.size < 2 ^ 64)
    (hlen : ∀ s, s < a.size → (a.cell s).len < 2 ^ 64)
    (hpattern : ∀ s, s < a.size → (a.cell s).pattern < 2 ^ 64) : Fits a := by
  intro w hw
  simp only [words_eq, List.mem_append, List.mem_replicate, List.mem_map, List.mem_flatMap,
    List.mem_range] at hw
  rcases hw with (((⟨-, rfl⟩ | ⟨s, hs, rfl⟩) | ⟨s, hs, hw⟩) | ⟨s, hs, rfl⟩) | ⟨s, hs, rfl⟩
  · exact hsize
  · exact hlen s hs
  · obtain ⟨c, rfl⟩ := Automaton.mem_next.1 hw
    exact Nat.lt_trans (h.target s hs c).2 hsize
  · by_cases hlink : (a.cell s).link = StateId.sentinel
    · rw [hlink]
      exact Nat.two_pow_pos 64
    · exact Nat.lt_trans (h.link s hs hlink).1 hsize
  · exact hpattern s hs

/-! ## Built automata -/

section Built

variable {b : Builder} {ps : List Pattern}

theorem sound_build (hb : b.Collects ps) (hps : [] ∉ ps) : b.build.Sound :=
  hb.holds.sound hps

theorem storable_build (hb : b.Collects ps) (hps : [] ∉ ps) (hstates : 256 * b.stateCount < 2 ^ 64)
    (hpatterns : b.patternCount < 2 ^ 64) : Storable b.build := by
  have hlinked := hb.holds.linked
  have hsize : b.build.size = b.trie.size := Trie.size_compile _
  have hlt : b.build.size < 2 ^ 64 := by
    rw [hsize]
    exact Nat.lt_of_le_of_lt (Nat.le_mul_of_pos_left _ (by decide)) hstates
  have hroot : StateId.root < b.build.size := by
    rw [hsize]
    exact hlinked.two_le_size
  have hsound := sound_build hb hps
  refine ⟨hroot, by rwa [hsize], fits_of_sound hsound hlt (fun s hs => ?_) (fun s hs => ?_), hsound⟩
  · rw [hsize] at hs
    rw [Builder.build, Trie.cell_compile hs]
    rcases Nat.eq_zero_or_pos s with rfl | hpos
    · rw [show (0 : StateId) = StateId.sentinel from rfl, hb.holds.marked.len_sentinel]
      exact Nat.two_pow_pos 64
    · apply Nat.lt_of_le_of_lt (hb.holds.len_le ⟨hpos, hs⟩)
      exact Nat.lt_trans (Trie.length_pathTo_lt hlinked ⟨hpos, hs⟩) (Nat.lt_trans hs (hsize ▸ hlt))
  · rw [hsize] at hs
    rw [Builder.build, Trie.cell_compile hs]
    apply Nat.lt_of_le_of_lt (hb.holds.marked.pattern_le s)
    rwa [← hb.patternCount]

end Built

/-- The automata that can be had: built from any patterns, of which there are as many as fit into
64 bits, as do the entries of the table; decoded from any file that is accepted; or copied. -/
inductive Obtainable : Matcher → Prop
  | built (ps : List Pattern) (hstates : 256 * (({} : Builder).addAll ps).stateCount < 2 ^ 64)
      (hpatterns : (({} : Builder).addAll ps).patternCount < 2 ^ 64) :
      Obtainable { automaton := Builder.automatonOf ps }
  | decoded {file : ByteArray} {a : Automaton} (h : decode file = .ok a) :
      Obtainable { automaton := a }
  | copied {m : Matcher} (h : Obtainable m) : Obtainable m.copy

theorem Obtainable.storable {m : Matcher} (h : Obtainable m) : Storable m.automaton := by
  induction h with
  | built ps hstates hpatterns =>
    exact storable_build (Builder.collects_addAll ps) (Builder.not_nil_mem_numbered ps) hstates
      hpatterns
  | decoded h => exact storable_of_decode h
  | copied _ ih => exact ih

/-- **Every automaton that can be had is what its container is decoded as**, and the check finds no
defect in a table that was built, whatever the patterns are. -/
theorem decode_encode_obtainable :
    (∀ m, Obtainable m → decode (encode m.automaton) = .ok m.automaton) ∧
      ∀ ps, (Builder.automatonOf ps).defect? = none := by
  refine ⟨fun m h => h.storable.decode_encode, fun ps => ?_⟩
  have hb := Builder.collects_addAll ps
  refine (Automaton.defect?_eq_none_iff ?_).2 (sound_build hb (Builder.not_nil_mem_numbered ps))
  rw [Builder.automatonOf, Builder.build, Trie.size_compile]
  exact hb.holds.linked.two_le_size

/-- The matcher of the patterns `he` and `she`. -/
def heShe : Matcher :=
  { automaton := Builder.automatonOf [[104, 101], [115, 104, 101]] }

theorem obtainable_heShe : Obtainable heShe :=
  .built [[104, 101], [115, 104, 101]] (by decide +kernel) (by decide +kernel)

theorem decode_encode_heShe : decode (encode heShe.automaton) = .ok heShe.automaton :=
  decode_encode_obtainable.1 heShe obtainable_heShe

end PatternScan.Container
