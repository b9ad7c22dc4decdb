import PatternScan.Proofs.Container.RoundTrip
import PatternScan.Proofs.Pool
import PatternScan.Proofs.Scan

/-!
# All searches agree

A search for all occurrences, for the first, for any at all, into a lent buffer and over files are
walks with different callbacks. As each callback is fed with the same list of events, the results of
the others can be read off that of the first. A lent buffer could hold what an earlier search has
left in it; `Desk.Deed` are the things that can have happened to the pool before, and
`Desk.after_eq_run` says that they are a history of plain loans, after which every buffer that is
lent is empty. `searches_agree` puts this together.
-/

namespace PatternScan

/-! ## Searches of one text -/

namespace Automaton

variable (a : Automaton) (text : ByteArray)

theorem findFirst?_eq_getElem? : a.findFirst? text = (a.findAll text)[0]? := by
  have hall : (a.findAll text)[0]? = ((a.trace text).map Event.occurrence)[0]? := by
    rw [← toList_findAll, Array.getElem?_toList]
  rw [hall, findFirst?, walk_eq_feed]
  cases a.trace text <;> rfl

theorem isMatch_eq_isSome : a.isMatch text = (a.findFirst? text).isSome := by
  rw [isMatch, findFirst?, walk_eq_feed, walk_eq_feed]
  cases a.trace text <;> rfl

theorem isMatch_iff : a.isMatch text = true ↔ a.findAll text ≠ #[] := by
  rw [isMatch_eq_isSome, findFirst?_eq_getElem?, isSome_getElem?]
  exact Array.size_pos_iff

/-- A search into a buffer appends all occurrences to it. -/
theorem walk_push (b : Buffer) :
    a.walk (fun b e => (b.push e.occurrence, true)) text b = b.append (a.findAll text) := by
  rw [walk_eq_foldl, Buffer.append_eq_foldl, toList_findAll, List.foldl_map]

end Automaton

/-! ## Searches into lent buffers -/

theorem Matcher.findAllPooled_eq (m : Matcher) (text : ByteArray) : m.findAllPooled text =
    (m.pool.acquire.1.append (m.automaton.findAll text), { m with pool := m.pool.acquire.2 }) := by
  rw [Matcher.findAllPooled, ← Automaton.walk_push]

namespace Desk

variable {a : Automaton} {d : Desk} {holder : String}

/-- Leaves the result of a search with the holder of a name; what he has held before goes back. -/
def hold (d : Desk) (a : Automaton) (holder : String) (text : ByteArray) : Desk :=
  let (b, m) := Matcher.findAllPooled ⟨a, d.pool⟩ text
  ⟨(d.loan? holder).toList.foldl Pool.release m.pool, (holder, b) :: d.others holder⟩

/-- What can happen to the pool of an automaton. -/
inductive Deed
  | act (action : Action)
  /-- A search of some text into a lent buffer. -/
  | search (text : ByteArray)

/-- The desk after a deed of a holder. -/
def perform (a : Automaton) (d : Desk) : String × Deed → Desk
  | (holder, .act action) => (d.step holder action).1
  | (holder, .search text) => d.hold a holder text

/-- The desk after deeds of its holders. -/
def after (a : Automaton) (d : Desk) (deeds : List (String × Deed)) : Desk :=
  deeds.foldl (perform a) d

/-- The loans and uses that a deed consists of. -/
def Deed.actions (a : Automaton) : Deed → List Action
  | .act action => [action]
  | .search text => [.acquire, .use (.push (a.findAll text))]

theorem others_cons_others (pool : Pool) (d : Desk) (holder : String) (b : Buffer) :
    (Desk.mk pool ((holder, b) :: d.others holder)).others holder = d.others holder := by
  simp [others]

/-- A search is a loan, and all occurrences are pushed onto what is lent. -/
theorem hold_eq_run (d : Desk) (a : Automaton) (holder : String) (text : ByteArray) :
    d.hold a holder text =
      d.run [(holder, .acquire), (holder, .use (.push (a.findAll text)))] := by
  have hloan : (d.acquire holder).1.loan? holder = some d.pool.acquire.1 := by
    rw [Desk.acquire, loan?_cons_others, if_pos rfl]
  have hpush : d.run [(holder, .acquire), (holder, .use (.push (a.findAll text)))] =
      ((d.acquire holder).1.step holder (.use (.push (a.findAll text)))).1 := rfl
  rw [hpush, step_use_of_loan hloan, useLoan, update, Desk.acquire, others_cons_others, hold,
    Matcher.findAllPooled_eq]

theorem perform_eq_run (d : Desk) (holder : String) (deed : Deed) :
    d.perform a (holder, deed) = d.run ((deed.actions a).map (holder, ·)) := by
  cases deed with
  | act action => rfl
  | search text => exact hold_eq_run d a holder text

/-- **Deeds are a history of loans and uses.** -/
theorem after_eq_run (d : Desk) (deeds : List (String × Deed)) : d.after a deeds =
    d.run (deeds.flatMap fun (holder, deed) => (deed.actions a).map (holder, ·)) := by
  induction deeds generalizing d with
  | nil => rfl
  | cons e deeds ih =>
    rw [List.flatMap_cons, run, List.foldl_append, ← run, ← run, ← perform_eq_run, ← ih]
    rfl

/-- Whatever has happened to a pool, a search into a buffer of it finds what any search finds. -/
theorem records_findAllPooled (prewarm capacity : Nat) (deeds : List (String × Deed))
    (text : ByteArray) :
    (Matcher.findAllPooled ⟨a, ((opened prewarm capacity).after a deeds).pool⟩ text).1.records =
      a.findAll text := by
  rw [after_eq_run, Matcher.findAllPooled_eq, Buffer.records_append]
  simp only
  rw [(inOrder_run prewarm capacity _).accounts.records_acquire, Array.empty_append]

end Desk

theorem Container.Obtainable.pool_eq {m : Matcher} (h : Container.Obtainable m) :
    m.pool = Pool.standard := by
  cases h <;> rfl

/-! ## Scans of files -/

/-- A result with its first occurrence alone. -/
def FileResult.first (r : FileResult) : FileResult :=
  { r with found := r.found[0]?.toArray }

namespace Scanner

variable {a : Automaton}

theorem search_firstOnly (a : Automaton) (text : ByteArray) :
    (Scanner.mk a true).search text = (a.findAll text)[0]?.toArray := by
  rw [search, if_pos rfl, Automaton.findFirst?_eq_getElem?]

theorem searchFile_firstOnly (a : Automaton) (f : SourceFile) :
    (Scanner.mk a true).searchFile f =
      ((Scanner.mk a false).searchFile f).map FileResult.first := by
  unfold searchFile
  cases f.content with
  | error e => rfl
  | ok text =>
    simp only [Except.map, search_firstOnly]
    rfl

theorem outcomes_firstOnly (files : Array SourceFile) (order : List Nat) :
    ((Scanner.mk a true).run files order).outcomes =
      ((Scanner.mk a false).run files order).outcomes.map
        (Option.map (Except.map FileResult.first)) := by
  apply Array.ext_getElem?
  intro i
  rw [Array.getElem?_map, getElem?_outcomes_run, getElem?_outcomes_run, Option.map_map]
  congr 1
  funext f
  rw [Function.comp_apply, searchFile_firstOnly]
  split <;> rfl

/-- Counting a file depends on what is found in it only in the number of occurrences. -/
theorem count_firstOnly {p q : ScanStats} (h : q = { p with found := q.found }) (f : SourceFile) :
    (Scanner.mk a true).count q f =
      { (Scanner.mk a false).count p f with found := ((Scanner.mk a true).count q f).found } := by
  rw [h]
  unfold count
  cases f.content with
  | error e => rfl
  | ok text =>
    simp only [ScanStats.countFile]
    split <;> rfl

theorem stats_firstOnly (files : Array SourceFile) (order : List Nat) :
    ((Scanner.mk a true).run files order).stats =
      { ((Scanner.mk a false).run files order).stats with
        found := ((Scanner.mk a true).run files order).stats.found } := by
  induction order using List.reverseRecOn with
  | nil => rfl
  | append_singleton order i ih =>
    rw [run_append_singleton, run_append_singleton, handle, handle]
    cases files[i]? with
    | none => exact ih
    | some f => exact count_firstOnly ih f

/-- The results that are put together are the first occurrences of the full ones. -/
theorem found_firstOnly (files : Array SourceFile) (order places : List Nat) :
    ((Scanner.mk a true).run files order).found places =
      (((Scanner.mk a false).run files order).found places).map FileResult.first := by
  rw [Progress.found, Progress.found, List.map_filterMap]
  refine List.filterMap_congr fun i _ => ?_
  rw [outcomes_firstOnly, Array.getD_eq_getD_getElem?, Array.getD_eq_getD_getElem?,
    Array.getElem?_map]
  rcases ((Scanner.mk a false).run files order).outcomes[i]? with _ | _ | _ | r <;> rfl

theorem isEmpty_first (r : FileResult) : r.first.found.isEmpty = r.found.isEmpty := by
  rw [Bool.eq_iff_iff, FileResult.first]
  rcases r.found with ⟨_ | ⟨o, os⟩⟩ <;> simp

theorem report_firstOnly (threads : Nat) (files : Array SourceFile) (order : List Nat) :
    let p := (Scanner.mk a false).run files order
    let q := (Scanner.mk a true).run files order
    (q.report threads).results = (p.report threads).results.map FileResult.first ∧
      (q.report threads).searched = (p.report threads).searched ∧
      (q.report threads).matched = (p.report threads).matched := by
  intro p q
  have hsize : q.outcomes.size = p.outcomes.size := by
    rw [show q.outcomes = _ from outcomes_firstOnly files order, Array.size_map]
  have hfound : ∀ chunks : List (List Nat),
      chunks.flatMap q.found = (chunks.flatMap p.found).map FileResult.first := by
    intro chunks
    rw [List.map_flatMap]
    exact List.flatMap_congr fun places _ => found_firstOnly files order places
  unfold Progress.report
  simp only
  rw [hsize, hfound, Report.foldl_add, Report.foldl_add]
  generalize (chunksOf (chunkSize p.outcomes.size threads - 1)
    (List.range p.outcomes.size)).flatMap p.found = rs
  refine ⟨?_, ?_, ?_⟩
  · -- the results are sorted by paths, which are the same
    have hsorted : (rs.mergeSort fun r r' => (Path.compare r.path r'.path).isLE).map
        FileResult.first = (rs.map FileResult.first).mergeSort fun r r' =>
          (Path.compare r.path r'.path).isLE := List.map_mergeSort fun _ _ _ _ => rfl
    simp only [Report.sort, Report.ofResults, List.map_toArray, hsorted]
  · simp only [Report.sort, Report.ofResults, List.length_map]
  · simp only [Report.sort, Report.ofResults, List.countP_map, Function.comp_def, isEmpty_first]

end Scanner

/-! ## All of them -/

/-- **All searches agree.** For an automaton that was built or decoded, whatever has been done with
the buffers of its pool:

* the first occurrence is the first of all, and there is a match if there is any;
* a search into a lent buffer finds all of them and nothing else is in the buffer;
* offsets can be computed either way: each event has a record, its bytes can be cut out of the text,
  and they are as many as the record says;
* a scan finds all of them in a text, or the first alone.

A scan for first occurrences therefore handles the same files as a full one, in whatever order:
where that has an error it has the same, and where that has a result it has the first occurrence of
it. It reports the same files, as many of them with an occurrence, and counts the same files. -/
theorem searches_agree {m : Matcher} (hm : Container.Obtainable m) (text : ByteArray)
    (deeds : List (String × Desk.Deed)) :
    let a := m.automaton
    let all := a.findAll text
    let pool := (Desk.after a ⟨m.pool, []⟩ deeds).pool
    a.findFirst? text = all[0]? ∧
    (a.isMatch text = true ↔ all ≠ #[]) ∧
    (Matcher.findAllPooled ⟨a, pool⟩ text).1.records = all ∧
    (∀ e ∈ a.events text, e.record? = some e.occurrence ∧ e.match? text = some e.occurrence ∧
      (e.occurrence.bytes text).size = e.len) ∧
    (Scanner.mk a false).search text = all ∧
    (Scanner.mk a true).search text = all[0]?.toArray ∧
    ∀ threads files order,
      let p := (Scanner.mk a false).run files order
      let q := (Scanner.mk a true).run files order
      q.outcomes = p.outcomes.map (Option.map (Except.map FileResult.first)) ∧
      (q.report threads).results = (p.report threads).results.map FileResult.first ∧
      (q.report threads).searched = (p.report threads).searched ∧
      (q.report threads).matched = (p.report threads).matched ∧
      q.stats = { p.stats with found := q.stats.found } := by
  intro a all pool
  refine ⟨a.findFirst?_eq_getElem? text, a.isMatch_iff text, ?_, fun e he => ?_, rfl,
    Scanner.search_firstOnly a text, fun threads files order => ?_⟩
  · have hpool : pool = ((Desk.opened 64 16).after a deeds).pool := by
      rw [show pool = (Desk.after a ⟨m.pool, []⟩ deeds).pool from rfl, hm.pool_eq]
      rfl
    rw [hpool]
    exact Desk.records_findAllPooled 64 16 deeds text
  · have hmem : e ∈ a.trace text := by rwa [← Automaton.toList_events, Array.mem_toList_iff]
    have hinside := hm.storable.sound.mem_trace hm.storable.root_lt hmem
    obtain ⟨-, hle, hlast⟩ := id hinside
    refine ⟨hinside.record?_eq, hinside.match?_eq, ?_⟩
    rw [Occurrence.bytes, ByteArray.size_extract]
    simp only [Occurrence.stop, Event.occurrence]
    omega
  · obtain ⟨hresults, hsearched, hmatched⟩ := Scanner.report_firstOnly (a := a) threads files order
    exact ⟨Scanner.outcomes_firstOnly files order, hresults, hsearched, hmatched,
      Scanner.stats_firstOnly files order⟩

/-- A buffer that comes back with records of another text, and one that is still held. -/
theorem searches_agree_staleBuffer :
    Container.Obtainable Container.heShe ∧
      (Matcher.findAllPooled ⟨Container.heShe.automaton, (Desk.after Container.heShe.automaton
        ⟨Container.heShe.pool, []⟩ [("a", .search ⟨#[115, 104, 101]⟩),
          ("a", .act (.use (.push #[⟨7, 1, 5⟩]))), ("b", .act .acquire),
          ("a", .act (.use .release))]).pool⟩ ⟨#[104, 101]⟩).1.records = #[⟨0, 2, 0⟩] := by
  obtain ⟨-, -, hpooled, -, -⟩ := searches_agree Container.obtainable_heShe ⟨#[104, 101]⟩
    [("a", .search ⟨#[115, 104, 101]⟩), ("a", .act (.use (.push #[⟨7, 1, 5⟩]))),
      ("b", .act .acquire), ("a", .act (.use .release))]
  refine ⟨Container.obtainable_heShe, hpooled.trans (Array.toList_inj.1 ?_)⟩
  rw [Automaton.toList_findAll]
  decide +kernel

end PatternScan
