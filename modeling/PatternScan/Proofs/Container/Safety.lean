import Mathlib.Data.List.Nodup
import PatternScan.Matcher
import PatternScan.Proofs.Automaton.Run
import PatternScan.Proofs.Container.Check
import PatternScan.Proofs.Container.Payload

/-!
# Scans with a decoded automaton are safe

The conditions of `Automaton.Sound` are local: they speak of single cells, of the first link of each
and of the shortest way to it. Here they become a property of every run. Links shorten, so that the
chain from an accepting state ends inside the table (`Regular.exists_chain`); a state is entered
after at least as many bytes as its distance, so that all its matches lie in the text
(`Sound.mem_trace`).
`decodePayload_safeOn` puts this together for all searches.
-/

namespace PatternScan

/-! ## Arithmetic that may fail -/

namespace Event

/-- The offset of the first byte, if the subtraction does not go below 0. -/
def start? (e : Event) : Option Nat :=
  if e.len ≤ e.last + 1 then some (e.last + 1 - e.len) else none

/-- The record of an event, if it has a first byte. -/
def record? (e : Event) : Option Occurrence :=
  e.start?.map fun start => ⟨start, e.len, e.pattern⟩

/-- The occurrence of an event, if it has a first byte and the bytes from that to its last one can
be cut out of the text. -/
def match? (text : ByteArray) (e : Event) : Option Occurrence :=
  e.record?.filter fun o => o.start ≤ e.last + 1 && e.last < text.size

/-- The event is an occurrence of at least one byte inside the text. -/
def Inside (text : ByteArray) (e : Event) : Prop :=
  1 ≤ e.len ∧ e.len ≤ e.last + 1 ∧ e.last < text.size

variable {text : ByteArray} {e : Event}

theorem Inside.record?_eq (h : e.Inside text) : e.record? = some e.occurrence := by
  unfold record? start?
  rw [if_pos h.2.1]
  rfl

theorem Inside.match?_eq (h : e.Inside text) : e.match? text = some e.occurrence := by
  have hstart : e.occurrence.start ≤ e.last + 1 := Nat.sub_le _ _
  unfold match?
  rw [h.record?_eq, Option.filter_some, if_pos]
  simp [hstart, h.2.2]

end Event

namespace Automaton

variable {a : Automaton}

/-! ## Chains -/

/-- Longer patterns come first. -/
abbrev Shortens (a : Automaton) (us : List StateId) : Prop :=
  us.Pairwise fun u v => (a.cell v).len < (a.cell u).len

/-- The chain from an accepting state on ends, as every link shortens the match. -/
theorem Regular.exists_chain (h : a.Regular) {u : StateId} (hu : u < a.size)
    (hpos : 0 < (a.cell u).len) : ∃ us, a.Chain u us ∧ a.Shortens us ∧
      ∀ v ∈ us, v < a.size ∧ 0 < (a.cell v).len ∧ (a.cell v).len ≤ (a.cell u).len := by
  induction hn : (a.cell u).len using Nat.strongRecOn generalizing u with
  | ind n ih =>
    subst hn
    have hne : u ≠ StateId.sentinel := by
      intro he
      rw [he, (h.reserved _ (.inl rfl)).1] at hpos
      exact Nat.lt_irrefl 0 hpos
    by_cases hlink : (a.cell u).link = StateId.sentinel
    · refine ⟨[u], .cons hne hu (hlink ▸ .nil), List.pairwise_singleton _ _, fun v hv => ?_⟩
      obtain rfl := List.mem_singleton.1 hv
      exact ⟨hu, hpos, Nat.le_refl _⟩
    · obtain ⟨hlt, hpos', hshort⟩ := h.link u hu hlink
      obtain ⟨us, hus, hsorted, hbound⟩ := ih _ (hshort hpos) hlt hpos' rfl
      refine ⟨u :: us, .cons hne hu hus, ?_, fun v hv => ?_⟩
      · refine List.pairwise_cons.2 ⟨fun v hv => ?_, hsorted⟩
        exact Nat.lt_of_le_of_lt (hbound v hv).2.2 (hshort hpos)
      · rcases List.mem_cons.1 hv with rfl | hv
        · exact ⟨hu, hpos, Nat.le_refl _⟩
        · obtain ⟨hv, hvpos, hle⟩ := hbound v hv
          exact ⟨hv, hvpos, Nat.le_trans hle (Nat.le_of_lt (hshort hpos))⟩

/-- The chain that a state links to ends, whether or not the state itself accepts. -/
theorem Regular.exists_chain_link (h : a.Regular) {s : StateId} (hs : s < a.size) :
    ∃ us, a.Chain (a.cell s).link us ∧ a.Shortens us ∧
      ∀ v ∈ us, v < a.size ∧ 0 < (a.cell v).len ∧ (a.cell s).link ≠ StateId.sentinel ∧
        (a.cell v).len ≤ (a.cell (a.cell s).link).len := by
  by_cases hlink : (a.cell s).link = StateId.sentinel
  · exact ⟨[], hlink ▸ .nil, List.Pairwise.nil, fun v hv => nomatch hv⟩
  · obtain ⟨hlt, hpos, -⟩ := h.link s hs hlink
    obtain ⟨us, hus, hsorted, hbound⟩ := h.exists_chain hlt hpos
    exact ⟨us, hus, hsorted, fun v hv =>
      ⟨(hbound v hv).1, (hbound v hv).2.1, hlink, (hbound v hv).2.2⟩⟩

/-- States with different lengths are different, so a chain is no longer than the table. -/
theorem Shortens.length_le {us : List StateId} (h : a.Shortens us) (hus : ∀ v ∈ us, v < a.size) :
    us.length ≤ a.size := by
  have hnodup : us.Nodup := List.Pairwise.imp (fun {u v} hlt he => by
    subst he
    exact Nat.lt_irrefl _ hlt) h
  have hsub : us ⊆ List.range a.size := fun v hv => List.mem_range.2 (hus v hv)
  have hle := (List.subperm_of_subset hnodup hsub).length_le
  rwa [List.length_range] at hle

theorem Regular.linking (h : a.Regular) {s : StateId} (hs : s < a.size) : a.Linking s := by
  obtain ⟨us, hus, hsorted, hbound⟩ := h.exists_chain_link hs
  exact ⟨us, hus, hsorted.length_le fun v hv => (hbound v hv).1⟩

/-- What is reported in a state is no longer than the shortest way to it, the longest first. -/
theorem Sound.reported (h : a.Sound) {s : StateId} {d : Nat} (hs : s < a.size)
    (hd : a.Distance s d) : a.Shortens (a.reported s) ∧
      ∀ v ∈ a.reported s, 1 ≤ (a.cell v).len ∧ (a.cell v).len ≤ d := by
  obtain ⟨us, hus, hsorted, hbound⟩ := h.toRegular.exists_chain_link hs
  obtain ⟨hown, hlink⟩ := h.length s d hd
  have hchain : ∀ v ∈ us, 1 ≤ (a.cell v).len ∧ (a.cell v).len ≤ d := by
    intro v hv
    obtain ⟨-, hpos, hne, hle⟩ := hbound v hv
    exact ⟨hpos, Nat.le_trans hle (hlink hne)⟩
  rw [Automaton.reported, hus.chain_eq (hsorted.length_le fun v hv => (hbound v hv).1)]
  split
  · exact ⟨hsorted, hchain⟩
  · rename_i hlen
    have hpos := Nat.pos_of_ne_zero hlen
    refine ⟨List.pairwise_cons.2 ⟨fun v hv => ?_, hsorted⟩, fun v hv => ?_⟩
    · obtain ⟨-, -, hne, hle⟩ := hbound v hv
      exact Nat.lt_of_le_of_lt hle ((h.link s hs hne).2.2 hpos)
    · rcases List.mem_cons.1 hv with rfl | hv
      · exact ⟨hpos, hown⟩
      · exact hchain v hv

/-! ## Events -/

section Trace

variable {text : ByteArray}

theorem mem_trace {e : Event} : e ∈ a.trace text ↔ ∃ i < text.size,
    ∃ v ∈ a.reported (a.after (text.data.toList.take (i + 1))), a.eventAt i v = e := by
  simp only [trace, List.mem_flatMap, List.mem_range]
  refine exists_congr fun i => and_congr_right fun hi => ?_
  rw [eventsAfter_take a hi, List.mem_map]

/-- **The events of a text lie inside it**: a state is entered after no fewer bytes than the
shortest way to it has. -/
theorem Sound.mem_trace (h : a.Sound) (hsize : StateId.root < a.size) {e : Event}
    (he : e ∈ a.trace text) : e.Inside text := by
  obtain ⟨i, hi, v, hv, rfl⟩ := Automaton.mem_trace.1 he
  obtain ⟨d, hdle, hd⟩ := Distance.of_after a (text.data.toList.take (i + 1))
  rw [List.length_take_of_le (show i + 1 ≤ text.data.toList.length from hi)] at hdle
  obtain ⟨hpos, hle⟩ := (h.reported ((h.closed hsize).after_lt_size _) hd).2 v hv
  exact ⟨hpos, Nat.le_trans hle hdle, hi⟩

/-- The events come in ascending order of their last bytes, at one byte the longest first. -/
theorem Sound.pairwise_trace (h : a.Sound) (hsize : StateId.root < a.size) :
    (a.trace text).Pairwise Event.Before := by
  refine List.pairwise_flatMap.2 ⟨fun i hi => ?_, List.pairwise_lt_range.imp_of_mem ?_⟩
  · obtain ⟨d, -, hd⟩ := Distance.of_after a (text.data.toList.take (i + 1))
    have hsorted := (h.reported ((h.closed hsize).after_lt_size _) hd).1
    rw [eventsAfter_take a (List.mem_range.1 hi)]
    exact List.pairwise_map.2 (hsorted.imp fun hlt => .inr ⟨rfl, hlt⟩)
  · intro i j hi hj hlt e he e' he'
    rw [eventsAfter_take a (List.mem_range.1 hi)] at he
    rw [eventsAfter_take a (List.mem_range.1 hj)] at he'
    obtain ⟨v, -, rfl⟩ := List.mem_map.1 he
    obtain ⟨v', -, rfl⟩ := List.mem_map.1 he'
    exact .inl hlt

end Trace

/-! ## Searches -/

/-- All scans of a text come to an end, read inside the table, and report matches inside the text;
no search goes below 0 in an offset or cuts a match out of the text that is not in it. A walk has no
other run, so that these are all its events. -/
structure SafeOn (a : Automaton) (text : ByteArray) : Prop where
  walk : ∀ {σ : Type} (f : σ → Event → σ × Bool) (x : σ), ∃ es,
    a.Run (fun x e => some (f x e)) text x es (a.walk f text x) ∧
      (∀ e ∈ es, 1 ≤ e.len ∧ e.len ≤ e.last + 1 ∧ e.last < text.size) ∧
      es.Pairwise Event.Before ∧
      ∀ es' y, a.Run (fun x e => some (f x e)) text x es' y → es' = es ∧ y = a.walk f text x
  findAll : ∃ es, a.Run (fun os e => (e.match? text).map fun o => (os.push o, true)) text #[] es
    (a.findAll text)
  findFirst? : ∃ es, a.Run (fun _ e => (e.match? text).map fun o => (some o, false)) text none es
    (a.findFirst? text)
  isMatch : ∃ es, a.Run (fun _ _ => some (true, false)) text false es (a.isMatch text)
  findAllPooled : ∀ pool : Pool, ∃ es,
    a.Run (fun b e => e.record?.map fun o => (b.push o, true)) text pool.acquire.1 es
      (Matcher.findAllPooled ⟨a, pool⟩ text).1

section Run

variable {text : ByteArray} {σ : Type} {g : σ → Event → Option (σ × Bool)}
  {f : σ → Event → σ × Bool}

theorem Regular.run (h : a.Regular) (hsize : StateId.root < a.size)
    (hg : ∀ x, ∀ e ∈ a.trace text, g x e = some (f x e)) (x : σ) :
    a.Run g text x (fed f x (a.trace text)) (a.walk f text x) :=
  have ha := h.closed hsize
  run_walk ha.after_lt_size (fun w => h.linking (ha.after_lt_size w)) hg x

theorem Sound.run (h : a.Sound) (hsize : StateId.root < a.size)
    (hg : ∀ x e, e.Inside text → g x e = some (f x e)) (x : σ) :
    a.Run g text x (fed f x (a.trace text)) (a.walk f text x) :=
  h.toRegular.run hsize (fun x e he => hg x e (h.mem_trace hsize he)) x

end Run

theorem Sound.safeOn (h : a.Sound) (hsize : StateId.root < a.size) (text : ByteArray) :
    a.SafeOn text where
  walk f x := by
    obtain ⟨hfirst, -⟩ := fed_eq f x (a.trace text)
    have hrun : a.Run (fun x e => some (f x e)) text x (fed f x (a.trace text)) (a.walk f text x) :=
      h.run hsize (fun _ _ _ => rfl) x
    refine ⟨_, hrun, fun e he => ?_, ?_, fun es y h' => h'.unique hrun⟩
    · exact h.mem_trace hsize (hfirst.subset he)
    · exact (h.pairwise_trace hsize).sublist hfirst.sublist
  findAll := ⟨_, h.run hsize (fun os e he => by rw [he.match?_eq]; rfl) #[]⟩
  findFirst? := ⟨_, h.run hsize (fun _ e he => by rw [he.match?_eq]; rfl) none⟩
  isMatch := ⟨_, h.run hsize (fun _ _ _ => rfl) false⟩
  findAllPooled pool := ⟨_, h.run hsize (fun b e he => by rw [he.record?_eq]; rfl) pool.acquire.1⟩

end Automaton

namespace Container

open Automaton

variable {s : ByteStream} {a : Automaton}

theorem root_lt_size_of_readTable (h : readTable s = .ok a) : StateId.root < a.size := by
  obtain ⟨-, n, -, hn, rfl⟩ := readTable_eq_ok_iff.1 h
  simpa using hn.root_lt

/-- What is decoded is sound, whoever wrote the payload. -/
theorem sound_of_decodePayload (h : decodePayload s = .ok a) :
    StateId.root < a.size ∧ a.Sound := by
  obtain ⟨hread, hdefect⟩ := decodePayload_eq_ok_iff.1 h
  have hsize := root_lt_size_of_readTable hread
  exact ⟨hsize, (defect?_eq_none_iff hsize).1 hdefect⟩

/-! ## A table that no builder makes -/

/-- A table that accepts after every byte, in one state for all of them. -/
def everyByte : Automaton :=
  ⟨#[{ next := Vector.replicate 256 1 }, { next := Vector.replicate 256 2 },
    { next := Vector.replicate 256 2, len := 1, pattern := 7 }]⟩

theorem step_everyByte {s : StateId} (hs : s < 3) (c : UInt8) :
    (everyByte.cell s).step c = if s = 0 then 1 else 2 := by
  have hget : ∀ t : StateId, (Vector.replicate 256 t).get ⟨c.toNat, c.toNat_lt⟩ = t := fun t =>
    Vector.getElem_replicate _
  match s, hs with
  | 0, _ => exact hget 1
  | 1, _ | 2, _ => exact hget 2

theorem sound_everyByte : everyByte.Sound := by
  have htarget : ∀ s, s < everyByte.size → ∀ c, (everyByte.cell s).step c ≠ StateId.sentinel ∧
      (everyByte.cell s).step c < everyByte.size := by
    intro s hs c
    rw [step_everyByte hs]
    split <;> decide
  refine ⟨⟨htarget, ?_, ?_⟩, fun s d hd => ?_⟩
  · rintro s (rfl | rfl) <;> exact ⟨rfl, rfl⟩
  · intro s hs hlink
    match s, hs with
    | 0, _ | 1, _ | 2, _ => exact absurd rfl hlink
  · match s, hd.lt_size ⟨by decide, fun s hs c => (htarget s hs c).2⟩ with
    | 0, _ | 1, _ => exact ⟨Nat.zero_le d, fun hlink => absurd rfl hlink⟩
    | 2, _ =>
      -- only the root is at distance 0
      refine ⟨Nat.pos_of_ne_zero ?_, fun hlink => absurd rfl hlink⟩
      rintro rfl
      exact absurd (Distance.zero_iff.1 hd) (by decide)

theorem fits_everyByte : Fits everyByte := by
  unfold Fits
  decide +kernel

theorem decodePayload_everyByte : decodePayload ⟨payload everyByte, .clean⟩ = .ok everyByte :=
  decodePayload_payload (by decide) (by decide) fits_everyByte
    ((defect?_eq_none_iff (by decide)).2 sound_everyByte)

/-! ## Safety -/

/-- **Scans with a decoded automaton are safe**, with every text and every callback. -/
theorem decodePayload_safeOn (h : decodePayload s = .ok a) (text : ByteArray) : a.SafeOn text := by
  obtain ⟨hsize, hsound⟩ := sound_of_decodePayload h
  exact hsound.safeOn hsize text

theorem safeOn_everyByte : decodePayload ⟨payload everyByte, .clean⟩ = .ok everyByte ∧
    everyByte.SafeOn ⟨#[104, 105]⟩ :=
  ⟨decodePayload_everyByte, decodePayload_safeOn decodePayload_everyByte _⟩

end Container

end PatternScan
