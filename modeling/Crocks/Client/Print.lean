import Mathlib

/-!
# Printing shard lists

`Info::Print` writes the shards and future shards of each node with `ListToString`: the maximal
runs of consecutive ids of a strictly increasing list, in order and separated by commas, a run
of more than one id written `first-last`. The loop is modelled as the code runs it, with its
`in_range` flag, its `last` value and its `n == list[0]` test. An `int` is an `Int` in the range
of `int`, and `last + 1` fails where it would overflow, so that a result of the model is a run
of the code with no overflow.

Against the loop stand the maximal runs of a list (`runs`), how a run is written
(`renderRun`), and a reader of the format (`readList`). The main theorem says that on every
non-empty strictly increasing list of `int` the loop writes the maximal runs and that reading
the text back gives the list.
-/

namespace Crocks.Client

/-- `INT_MAX`. -/
def kIntMax : Int := 2 ^ 31 - 1

/-- `INT_MIN`. -/
def kIntMin : Int := -2 ^ 31

/-- `last + 1` on an `int`: signed overflow is undefined, so it fails at `INT_MAX`. -/
def intSucc (n : Int) : Option Int :=
  if n < kIntMax then some (n + 1) else none

/-- What `stream << n` writes for an `int`. -/
def decimal (n : Int) : List Char :=
  (toString n).toList

/-- The state of `ListToString`'s loop: `in_range`, `last`, and what the stream holds. -/
structure Printer where
  inRange : Bool
  last : Int
  stream : List Char
  deriving DecidableEq, Repr

/-- One pass of `ListToString`'s loop over the element `n`, `first` being `list[0]`. -/
def printStep (first : Int) (state : Printer) (n : Int) : Option Printer :=
  if n = first then
    some { state with last := n, stream := state.stream ++ decimal n }
  else do
    let next ← intSucc state.last
    if !state.inRange then
      if n = next then some { state with inRange := true, last := n }
      else some { state with last := n, stream := state.stream ++ ',' :: decimal n }
    else if n ≠ next then
      some { inRange := false, last := n,
             stream := state.stream ++ '-' :: decimal state.last ++ ',' :: decimal n }
    else some { state with last := n }

/-- The text after the loop: an open range is finished with `-last`. -/
def Printer.close (state : Printer) : List Char :=
  if state.inRange then state.stream ++ '-' :: decimal state.last else state.stream

/-- `ListToString`. An empty list has no `list[0]`, so the model fails on it, as it does where
`last + 1` would overflow. -/
def listToString (list : List Int) : Option String :=
  match list with
  | [] => none
  | first :: _ => do
    let final ← list.foldlM (printStep first) { inRange := false, last := first, stream := [] }
    some (String.mk final.close)

example : listToString [1, 2, 3, 5, 7, 8, 9] = some "1-3,5,7-9" := by decide

/-! ## Maximal runs and how they are written -/

/-- The maximal runs of consecutive integers of a list, in order, each as its first and last
value. -/
def runs : List Int → List (Int × Int)
  | [] => []
  | n :: rest =>
    match runs rest with
    | (first, last) :: more => if n + 1 = first then (n, last) :: more else (n, n) :: (first, last) :: more
    | [] => [(n, n)]

/-- The values of a run, ascending. -/
def runValues (run : Int × Int) : List Int :=
  (List.range (run.2 - run.1 + 1).toNat).map fun k : Nat => run.1 + k

/-- Runs that are the maximal runs of the list they cover: they cover it in order, each is a
range, and no run ends right before the next begins. -/
structure MaximalRuns (list : List Int) (found : List (Int × Int)) : Prop where
  covers : found.flatMap runValues = list
  ranges : ∀ run ∈ found, run.1 ≤ run.2
  separated : found.Chain' fun run next => run.2 + 1 < next.1

/-- How `ListToString` writes a run: `a` for a single value, `a-b` for more. -/
def renderRun (run : Int × Int) : List Char :=
  if run.1 < run.2 then decimal run.1 ++ '-' :: decimal run.2 else decimal run.1

/-- Runs written one after another, separated by commas. -/
def renderRuns (found : List (Int × Int)) : List Char :=
  [','].intercalate (found.map renderRun)

theorem runValues_single (n : Int) : runValues (n, n) = [n] := by
  simp [runValues, List.range_succ]

/-- A range is its first value followed by the range after it. -/
theorem runValues_cons {first last : Int} (ordered : first ≤ last) :
    runValues (first, last) = first :: runValues (first + 1, last) := by
  have count : (last - first + 1).toNat = (last - (first + 1) + 1).toNat + 1 := by omega
  simp only [runValues, count, List.range_succ_eq_map, List.map_cons, List.map_map]
  refine congrArg₂ _ (by simp) (List.map_congr_left fun k _ => ?_)
  simp only [Function.comp, Nat.succ_eq_add_one, Nat.cast_add, Nat.cast_one]
  ring

/-- The first run of a list starts at its first value. -/
theorem runs_cons (n : Int) (rest : List Int) : ∃ last more, runs (n :: rest) = (n, last) :: more := by
  unfold runs
  split
  · split
    · exact ⟨_, _, rfl⟩
    · exact ⟨_, _, rfl⟩
  · exact ⟨_, _, rfl⟩

/-- The runs of a strictly increasing list are its maximal runs. -/
theorem maximalRuns_runs : ∀ list : List Int, list.Sorted (· < ·) → MaximalRuns list (runs list)
  | [], _ => ⟨rfl, nofun, List.chain'_nil⟩
  | n :: rest, sorted => by
    rw [List.sorted_cons] at sorted
    have ih := maximalRuns_runs rest sorted.2
    unfold runs
    split
    · next first last more listed =>
      rw [listed] at ih
      have ordered : first ≤ last := ih.ranges _ (.head _)
      have below : n < first := by
        have covers := ih.covers
        rw [List.flatMap_cons, runValues_cons ordered] at covers
        exact sorted.1 first (covers ▸ .head _)
      split
      · next next =>
        refine ⟨?_, ?_, ?_⟩
        · rw [← ih.covers, List.flatMap_cons, List.flatMap_cons, runValues_cons (by omega), next]
          rfl
        · exact List.forall_mem_cons.mpr ⟨by omega, (List.forall_mem_cons.mp ih.ranges).2⟩
        · cases more with
          | nil => exact List.chain'_singleton _
          | cons run more => exact List.chain'_cons.mpr (List.chain'_cons.mp ih.separated)
      · next gap =>
        refine ⟨?_, ?_, ?_⟩
        · rw [List.flatMap_cons, runValues_single, ← ih.covers]; rfl
        · exact List.forall_mem_cons.mpr ⟨le_rfl, ih.ranges⟩
        · exact List.Chain'.cons (by simp only; omega) ih.separated
    · next listed =>
      have empty : rest = [] := by rw [← ih.covers, listed]; rfl
      subst empty
      exact ⟨by simp [runValues_single], by simp, List.chain'_singleton _⟩

/-! ## Reading the format back -/

/-- The value of a decimal digit. -/
def digitValue (c : Char) : Nat :=
  c.toNat - '0'.toNat

/-- The value of a string of decimal digits, most significant first. -/
def digitsValue (digits : List Char) : Nat :=
  digits.foldl (fun value c => value * 10 + digitValue c) 0

/-- Read a natural number written in decimal from the front of a text. -/
def readNat (text : List Char) : Option (Nat × List Char) :=
  match text.takeWhile Char.isDigit with
  | [] => none
  | digits => some (digitsValue digits, text.dropWhile Char.isDigit)

/-- Read an `int` as `operator<<` writes it from the front of a text. -/
def readInt : List Char → Option (Int × List Char)
  | [] => none
  | c :: text =>
    if c = '-' then (readNat text).map fun read => (-(read.1 : Int), read.2)
    else (readNat (c :: text)).map fun read => ((read.1 : Int), read.2)

/-- Read one run, `a` or `a-b`, that makes up all of a text. -/
def readRun (text : List Char) : Option (Int × Int) := do
  let (first, rest) ← readInt text
  match rest with
  | [] => some (first, first)
  | '-' :: tail =>
    let (last, rest) ← readInt tail
    if rest = [] then some (first, last) else none
  | _ => none

/-- A reader of `ListToString`'s format: runs separated by commas, each read as its values. -/
def readList (text : List Char) : Option (List Int) :=
  ((text.splitOn ',').mapM readRun).map fun found => found.flatMap runValues

theorem digitChar_digit : ∀ k < 10, (Nat.digitChar k).isDigit = true ∧
    digitValue (Nat.digitChar k) = k := by
  decide

theorem digitsValue_append_digit (digits : List Char) (c : Char) :
    digitsValue (digits ++ [c]) = digitsValue digits * 10 + digitValue c := by
  simp [digitsValue]

/-- The digits of a number, as `Nat.toDigitsCore` puts them in front of what it was given. -/
theorem toDigitsCore_digits : ∀ fuel n (tail : List Char), n < fuel →
    ∃ digits, Nat.toDigitsCore 10 fuel n tail = digits ++ tail ∧ digits ≠ [] ∧
      (∀ c ∈ digits, c.isDigit = true) ∧ digitsValue digits = n
  | 0, _, _, lt => absurd lt (Nat.not_lt_zero _)
  | fuel + 1, n, tail, lt => by
    have last := digitChar_digit (n % 10) (Nat.mod_lt _ (by decide))
    by_cases small : n / 10 = 0
    · refine ⟨[Nat.digitChar (n % 10)], by simp [Nat.toDigitsCore, small], by simp,
        by simpa using last.1, ?_⟩
      have value := digitsValue_append_digit [] (Nat.digitChar (n % 10))
      simp only [List.nil_append] at value
      rw [value, last.2]
      simp [digitsValue]
      omega
    · obtain ⟨digits, written, nonempty, isDigit, value⟩ :=
        toDigitsCore_digits fuel (n / 10) (Nat.digitChar (n % 10) :: tail) (by omega)
      refine ⟨digits ++ [Nat.digitChar (n % 10)], by simp [Nat.toDigitsCore, small, written],
        by simp, ?_, ?_⟩
      · intro c mem
        rcases List.mem_append.mp mem with early | single
        · exact isDigit c early
        · rw [List.mem_singleton.mp single]
          exact last.1
      · rw [digitsValue_append_digit, value, last.2]
        omega

/-- Reading a number's digits, followed by text that does not go on with a digit, returns the
number and that text. -/
theorem readNat_digits {digits rest : List Char} {n : Nat} (nonempty : digits ≠ [])
    (isDigit : ∀ c ∈ digits, c.isDigit = true) (value : digitsValue digits = n)
    (stop : ∀ c ∈ rest.head?, c.isDigit = false) :
    readNat (digits ++ rest) = some (n, rest) := by
  have taken : rest.takeWhile Char.isDigit = [] := by
    cases rest with
    | nil => rfl
    | cons c rest => simp [List.takeWhile_cons, stop c rfl]
  have dropped : rest.dropWhile Char.isDigit = rest := by
    cases rest with
    | nil => rfl
    | cons c rest => simp [List.dropWhile_cons, stop c rfl]
  obtain ⟨first, more, rfl⟩ := List.exists_cons_of_ne_nil nonempty
  simp only [readNat, List.takeWhile_append_of_pos isDigit, taken, List.append_nil,
    List.dropWhile_append_of_pos isDigit, dropped, value]

/-- Reading what `operator<<` writes for an `int`, followed by text that does not go on with a
digit, returns the `int` and that text. -/
theorem readInt_decimal (n : Int) (rest : List Char) (stop : ∀ c ∈ rest.head?, c.isDigit = false) :
    readInt (decimal n ++ rest) = some (n, rest) := by
  cases n with
  | ofNat m =>
    obtain ⟨digits, written, nonempty, isDigit, value⟩ :=
      toDigitsCore_digits (m + 1) m [] (Nat.lt_succ_self m)
    have shown : decimal (Int.ofNat m) = digits := by
      simpa using written
    obtain ⟨first, more, rfl⟩ := List.exists_cons_of_ne_nil nonempty
    have sign : first ≠ '-' := by
      rintro rfl
      exact absurd (isDigit _ (.head _)) (by decide)
    rw [shown, List.cons_append, readInt, if_neg sign, ← List.cons_append,
      readNat_digits nonempty isDigit value stop]
    rfl
  | negSucc m =>
    obtain ⟨digits, written, nonempty, isDigit, value⟩ :=
      toDigitsCore_digits (m + 2) (m + 1) [] (Nat.lt_succ_self _)
    have shown : decimal (Int.negSucc m) = '-' :: digits := by
      rw [← List.append_nil digits, ← written]
      rfl
    rw [shown, List.cons_append, readInt, if_pos rfl, readNat_digits nonempty isDigit value stop]
    simp [Int.negSucc_eq]

/-- What `operator<<` writes for an `int` has no comma. -/
theorem comma_not_mem_decimal (n : Int) : ',' ∉ decimal n := by
  cases n with
  | ofNat m =>
    obtain ⟨digits, written, -, isDigit, -⟩ := toDigitsCore_digits (m + 1) m [] (Nat.lt_succ_self m)
    have shown : decimal (Int.ofNat m) = digits := by
      rw [← List.append_nil digits, ← written]
      rfl
    exact shown ▸ fun mem => absurd (isDigit _ mem) (by decide)
  | negSucc m =>
    obtain ⟨digits, written, -, isDigit, -⟩ :=
      toDigitsCore_digits (m + 2) (m + 1) [] (Nat.lt_succ_self _)
    have shown : decimal (Int.negSucc m) = '-' :: digits := by
      rw [← List.append_nil digits, ← written]
      rfl
    rw [shown, List.mem_cons, not_or]
    exact ⟨by decide, fun mem => absurd (isDigit _ mem) (by decide)⟩

theorem comma_not_mem_renderRun (run : Int × Int) : ',' ∉ renderRun run := by
  unfold renderRun
  split
  · simp only [List.mem_append, List.mem_cons, not_or]
    exact ⟨comma_not_mem_decimal _, by decide, comma_not_mem_decimal _⟩
  · exact comma_not_mem_decimal _

/-- A run, read back from how it is written. -/
theorem readRun_renderRun (run : Int × Int) (ordered : run.1 ≤ run.2) :
    readRun (renderRun run) = some run := by
  obtain ⟨first, last⟩ := run
  have alone := readInt_decimal last [] nofun
  rw [List.append_nil] at alone
  unfold renderRun
  split
  · have dash : ∀ c ∈ ('-' :: decimal last).head?, c.isDigit = false := fun _ mem => by
      cases mem
      rfl
    simp [readRun, readInt_decimal first _ dash, alone]
  · have same : first = last := le_antisymm ordered (not_lt.mp ‹_›)
    simp [readRun, same, alone]

theorem renderRuns_single (run : Int × Int) : renderRuns [run] = renderRun run := by
  simp [renderRuns, List.intercalate]

theorem renderRuns_cons_cons (run next : Int × Int) (more : List (Int × Int)) :
    renderRuns (run :: next :: more) = renderRun run ++ ',' :: renderRuns (next :: more) := by
  simp [renderRuns, List.intercalate]

/-- Reading written runs back gives their values. -/
theorem readList_renderRuns (found : List (Int × Int)) (nonempty : found ≠ [])
    (ordered : ∀ run ∈ found, run.1 ≤ run.2) :
    readList (renderRuns found) = some (found.flatMap runValues) := by
  have pieces : (renderRuns found).splitOn ',' = found.map renderRun :=
    List.splitOn_intercalate _ _ (by
      simp only [List.mem_map]
      rintro _ ⟨run, -, rfl⟩
      exact comma_not_mem_renderRun run) (by simpa using nonempty)
  have read : ∀ runs : List (Int × Int), (∀ run ∈ runs, run.1 ≤ run.2) →
      (runs.map renderRun).mapM readRun = some runs := by
    intro runs ordered
    induction runs with
    | nil => rfl
    | cons run more ih =>
      rw [List.forall_mem_cons] at ordered
      rw [List.map_cons, List.mapM_cons, readRun_renderRun run ordered.1, ih ordered.2]
      rfl
  rw [readList, pieces, read found ordered]
  rfl

/-! ## The loop writes the maximal runs -/

/-- The runs of a list, from the runs of its tail. -/
theorem runs_cons_of {n first last : Int} {rest : List Int} {more : List (Int × Int)}
    (listed : runs rest = (first, last) :: more) :
    runs (n :: rest) =
      if n + 1 = first then (n, last) :: more else (n, n) :: (first, last) :: more := by
  rw [runs, listed]

/-- The loop's pass over the value after `last`: the open run reaches it. -/
theorem printStep_extends {first start last : Int} (before : List Char) (fresh : last + 1 ≠ first)
    (started : start ≤ last) (room : last < kIntMax) :
    printStep first ⟨decide (start < last), last, before ++ decimal start⟩ (last + 1) =
      some ⟨decide (start < last + 1), last + 1, before ++ decimal start⟩ := by
  have succ : intSucc last = some (last + 1) := if_pos room
  by_cases open_ : start < last <;>
    simp [printStep, fresh, succ, open_, show start < last + 1 by omega]

/-- The loop's pass over a value past a gap after `last`: the open run is written out, and a run
opens at the value. -/
theorem printStep_breaks {first start last n : Int} (before : List Char) (fresh : n ≠ first)
    (gap : n ≠ last + 1) (room : last < kIntMax) :
    printStep first ⟨decide (start < last), last, before ++ decimal start⟩ n =
      some ⟨decide (n < n), n, before ++ renderRun (start, last) ++ [','] ++ decimal n⟩ := by
  have succ : intSucc last = some (last + 1) := if_pos room
  by_cases open_ : start < last <;> simp [printStep, fresh, succ, gap, open_, renderRun]

/-- The loop over the rest of the list, from a state whose open run starts at `start` and has
reached `last`, finishes that run as the maximal runs of the rest say and writes those after
it; no `last + 1` overflows on the way. -/
theorem print_rest (first : Int) :
    ∀ (rest : List Int) (before : List Char) (start last : Int), start ≤ last → first ≤ last →
      (last :: rest).Sorted (· < ·) → (∀ n ∈ rest, n ≤ kIntMax) →
      ∃ final, rest.foldlM (printStep first)
          ⟨decide (start < last), last, before ++ decimal start⟩ = some final ∧
        ∀ reached more, runs (last :: rest) = (last, reached) :: more →
          final.close = before ++ renderRuns ((start, reached) :: more)
  | [], before, start, last, _, _, _, _ => by
    refine ⟨_, rfl, fun reached more listed => ?_⟩
    obtain ⟨rfl, rfl⟩ : last = reached ∧ [] = more := by simpa [runs] using listed
    by_cases open_ : start < last <;> simp [Printer.close, renderRuns_single, renderRun, open_]
  | n :: rest, before, start, last, started, past, sorted, bounded => by
    rw [List.sorted_cons, List.forall_mem_cons] at sorted
    rw [List.forall_mem_cons] at bounded
    have above : last < n := sorted.1.1
    have room : last < kIntMax := by omega
    obtain ⟨reachedN, moreN, listedN⟩ := runs_cons n rest
    by_cases next : n = last + 1
    · subst next
      obtain ⟨final, folded, closes⟩ :=
        print_rest first rest before start (last + 1) (by omega) (by omega) sorted.2 bounded.2
      refine ⟨final, ?_, fun reached more listed => ?_⟩
      · rw [List.foldlM_cons, printStep_extends before (by omega) started room]
        exact folded
      · rw [runs_cons_of listedN, if_pos rfl] at listed
        obtain ⟨rfl, rfl⟩ : reachedN = reached ∧ moreN = more := by simpa using listed
        exact closes _ _ listedN
    · obtain ⟨final, folded, closes⟩ :=
        print_rest first rest (before ++ renderRun (start, last) ++ [',']) n n le_rfl (by omega)
          sorted.2 bounded.2
      refine ⟨final, ?_, fun reached more listed => ?_⟩
      · rw [List.foldlM_cons, printStep_breaks before (by omega) next room]
        exact folded
      · rw [runs_cons_of listedN, if_neg (Ne.symm next)] at listed
        obtain ⟨rfl, rfl⟩ : last = reached ∧ (n, reachedN) :: moreN = more := by
          simpa using listed
        rw [closes _ _ listedN, renderRuns_cons_cons]
        simp

/-- On every non-empty strictly increasing list of `int`, `ListToString` writes the maximal runs
of the list, `a` for a single value and `a-b` for more, separated by commas, with no `last + 1`
overflowing; reading the text back gives the list. -/
theorem listToString_writes_runs (list : List Int) (nonempty : list ≠ [])
    (increasing : list.Sorted (· < ·)) (ints : ∀ n ∈ list, kIntMin ≤ n ∧ n ≤ kIntMax) :
    MaximalRuns list (runs list) ∧ listToString list = some ⟨renderRuns (runs list)⟩ ∧
      readList (renderRuns (runs list)) = some list := by
  have maximal := maximalRuns_runs list increasing
  refine ⟨maximal, ?_, ?_⟩
  · obtain ⟨first, rest, rfl⟩ := List.exists_cons_of_ne_nil nonempty
    obtain ⟨final, folded, closes⟩ := print_rest first rest [] first first le_rfl le_rfl increasing
      fun n mem => (ints n (.tail _ mem)).2
    obtain ⟨reached, more, listed⟩ := runs_cons first rest
    simp only [List.nil_append] at folded closes
    have opened : printStep first ⟨false, first, []⟩ first =
        some ⟨decide (first < first), first, decimal first⟩ := by
      simp [printStep]
    simp only [listToString, List.foldlM_cons, opened, Option.bind_eq_bind, Option.some_bind,
      folded, closes _ _ listed, listed]
  · obtain ⟨first, rest, rfl⟩ := List.exists_cons_of_ne_nil nonempty
    obtain ⟨reached, more, listed⟩ := runs_cons first rest
    rw [readList_renderRuns _ (by simp [listed]) maximal.ranges, maximal.covers]

theorem shard_list_printed :
    [1, 2, 3, 5, 7, 8, 9] ≠ [] ∧ ([1, 2, 3, 5, 7, 8, 9] : List Int).Sorted (· < ·) ∧
      (∀ n ∈ ([1, 2, 3, 5, 7, 8, 9] : List Int), kIntMin ≤ n ∧ n ≤ kIntMax) ∧
      MaximalRuns [1, 2, 3, 5, 7, 8, 9] (runs [1, 2, 3, 5, 7, 8, 9]) ∧
      listToString [1, 2, 3, 5, 7, 8, 9] = some ⟨renderRuns (runs [1, 2, 3, 5, 7, 8, 9])⟩ ∧
      readList (renderRuns (runs [1, 2, 3, 5, 7, 8, 9])) = some [1, 2, 3, 5, 7, 8, 9] :=
  ⟨by decide, by decide, by decide,
    listToString_writes_runs [1, 2, 3, 5, 7, 8, 9] (by decide) (by decide) (by decide)⟩

end Crocks.Client
