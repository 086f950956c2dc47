import Cogterm.Library.RunLength
import Cogterm.Library.Splice

namespace Cogterm.Til

open Library

variable {T : Type}

-- basic_rle<T, S>. Sums of lengths are computed in S, an unsigned integer of
-- width bits.
structure Rle (T : Type) where
  runs : List (Run T)
  total : Nat
deriving DecidableEq, Repr

def sizeAdd (width a b : Nat) : Nat := (a + b) % 2 ^ width

def sizeSub (width a b : Nat) : Nat := (a + (2 ^ width - b % 2 ^ width)) % 2 ^ width

-- rle_scanner: the run it has reached and the length of the runs before it.
structure Scanner where
  it : Nat
  total : Nat
deriving DecidableEq, Repr

def scanRuns (width : Nat) : List (Run T) → Scanner → Nat → Scanner × Nat
  | [], scanner, _ => (scanner, 0)
  | run :: rest, scanner, index =>
    let newTotal := sizeAdd width scanner.total run.length
    if newTotal > index then (scanner, index - scanner.total)
    else scanRuns width rest ⟨scanner.it + 1, newTotal⟩ index

-- The scan continues where the last one stopped. The second result is run_pos.
def scan (width : Nat) (runs : List (Run T)) (scanner : Scanner) (index : Nat) : Scanner × Nat :=
  scanRuns width (runs.drop scanner.it) scanner index

def startScan : Scanner := ⟨0, 0⟩

namespace Rle

def atPosition (width : Nat) (rle : Rle T) (position : Nat) : Option T :=
  (rle.runs[(scan width rle.runs startScan position).1.it]?).map Run.value

def slice (width : Nat) (rle : Rle T) (startIndex endIndex : Nat) : Rle T :=
  let endIndex := min endIndex rle.total
  if startIndex ≥ endIndex then ⟨[], 0⟩
  else
    let first := scan width rle.runs startScan startIndex
    let last := scan width rle.runs first.1 (endIndex - 1)
    let slice := (rle.runs.drop first.1.it).take (last.1.it + 1 - first.1.it)
    let slice := slice.modify (slice.length - 1) (fun run => { run with length := sizeAdd width last.2 1 })
    let slice := slice.modify 0 (fun run => { run with length := run.length - first.2 })
    ⟨slice, endIndex - startIndex⟩

def checkIndices (rle : Rle T) (startIndex endIndex : Nat) : Option Nat :=
  let endIndex := min endIndex rle.total
  if startIndex > endIndex then none else some endIndex

def valueAt (runs : List (Run T)) (it : Nat) : Option T := runs[it]?.map Run.value
def lengthAt (runs : List (Run T)) (it : Nat) : Nat := (runs[it]?.map Run.length).getD 0
def setLength (runs : List (Run T)) (it length : Nat) : List (Run T) := runs.modify it (fun run => { run with length := length })

variable [DecidableEq T]

def removeUnchecked (width : Nat) (rle : Rle T) (startIndex endIndex : Nat) : Rle T :=
  let first := scan width rle.runs startScan startIndex
  let last := scan width rle.runs first.1 endIndex
  let finish := last.1.it
  let previous := if first.2 ≠ 0 then first.1.it else first.1.it - 1
  let joins := startIndex ≠ 0 ∧ endIndex ≠ rle.total ∧ valueAt rle.runs previous = valueAt rle.runs finish
  let kept := if first.2 ≠ 0 then first.2 else lengthAt rle.runs previous
  let runs := if joins then
      setLength rle.runs finish (sizeSub width (lengthAt rle.runs finish) (sizeSub width last.2 kept))
    else rle.runs
  let begin := if joins then previous else first.1.it
  let beginPos := if joins then 0 else first.2
  let endPos := if joins then 0 else last.2
  let runs := if beginPos ≠ 0 then setLength runs begin beginPos else runs
  let begin := if beginPos ≠ 0 then begin + 1 else begin
  let runs := if endPos ≠ 0 then setLength runs finish (lengthAt runs finish - endPos) else runs
  ⟨eraseRange runs begin finish, sizeSub width rle.total (endIndex - startIndex)⟩

-- What Step1 decides at the begin of the range: the run to write to first, the
-- part of it to keep, and the length to add to the first replacement.
structure Seam where
  it : Nat
  pos : Nat
  additionalLength : Nat
deriving DecidableEq, Repr

def beginSeam (rle : Rle T) (startIndex : Nat) (front : T) (begin beginPos : Nat) : Seam :=
  let previous := if beginPos ≠ 0 then begin else begin - 1
  if startIndex ≠ 0 ∧ valueAt rle.runs previous = some front then
    ⟨previous, 0, if beginPos ≠ 0 then beginPos else lengthAt rle.runs previous⟩
  else ⟨begin, beginPos, 0⟩

def endSeam (rle : Rle T) (endIndex : Nat) (back : T) (finish endPos : Nat) : Seam :=
  if endIndex ≠ rle.total ∧ valueAt rle.runs finish = some back then ⟨finish + 1, 0, lengthAt rle.runs finish - endPos⟩
  else ⟨finish, endPos, 0⟩

-- Step4 to Step6.2: the range of runs from begin to finish becomes the
-- replacements and the trailer. spare is the element that space is made with.
def placeRuns (spare : Run T) (runs : List (Run T)) (begin finish : Nat) (replacements : List (Run T))
    (trailer : Option (Run T)) : List (Run T) :=
  let availableSpace := finish - begin
  let requiredSpace := replacements.length + trailer.toList.length
  let direct := min availableSpace replacements.length
  let copied := overwriteAt runs begin (replacements.take direct)
  if availableSpace ≥ requiredSpace then eraseRange copied (begin + direct) finish
  else
    match trailer with
    | some run =>
      let grown := insertAt copied (begin + direct) (List.replicate (requiredSpace - availableSpace) spare)
      let filled := overwriteAt grown begin (replacements.drop direct)
      filled.set (begin + (replacements.drop direct).length) run
    | none => insertAt copied (begin + direct) (replacements.drop direct)

def addLength (width : Nat) (runs : List (Run T)) (it additionalLength : Nat) : List (Run T) :=
  if additionalLength ≠ 0 then runs.modify it (fun run => { run with length := sizeAdd width run.length additionalLength })
  else runs

-- Step2 to Step6.2: the runs, the place of the first replacement among them,
-- and the number of runs that were put there.
def spliceRuns (runs : List (Run T)) (beginning ending : Seam) (front : Run T) (others : List (Run T)) :
    List (Run T) × Nat × Nat :=
  let splits := beginning.it = ending.it ∧ beginning.pos ≠ 0
  let trailer := if splits then
      (runs[beginning.it]?).map (fun run => { run with length := run.length - ending.pos })
    else none
  let endPos := if splits then 0 else ending.pos
  let shortened := if beginning.pos ≠ 0 then setLength runs beginning.it beginning.pos else runs
  let begin := if beginning.pos ≠ 0 then beginning.it + 1 else beginning.it
  let shortened := if endPos ≠ 0 then setLength shortened ending.it (lengthAt shortened ending.it - endPos) else shortened
  (placeRuns front shortened begin ending.it (front :: others) trailer, begin, (front :: others).length + trailer.toList.length)

def replaceUnchecked (width : Nat) (rle : Rle T) (startIndex endIndex : Nat) (replacements : List (Run T)) : Rle T :=
  match replacements with
  | [] => removeUnchecked width rle startIndex endIndex
  | front :: others =>
    let back := (front :: others).getLastD front
    let first := scan width rle.runs startScan startIndex
    let last := scan width rle.runs first.1 endIndex
    let beginning := beginSeam rle startIndex front.value first.1.it first.2
    let ending := endSeam rle endIndex back.value last.1.it last.2
    let placed := spliceRuns rle.runs beginning ending front others
    let joined := addLength width placed.1 placed.2.1 beginning.additionalLength
    let joined := addLength width joined (placed.2.1 + placed.2.2 - 1) ending.additionalLength
    let total := (front :: others).foldl (fun total run => sizeAdd width total run.length)
      (sizeSub width rle.total (endIndex - startIndex))
    ⟨joined, total⟩

-- The throwing versions: an index error leaves the value alone.
def replaceRuns (width : Nat) (rle : Rle T) (startIndex endIndex : Nat) (replacements : List (Run T)) : Option (Rle T) :=
  (rle.checkIndices startIndex endIndex).map (fun endIndex => rle.replaceUnchecked width startIndex endIndex replacements)

def replaceValue (width : Nat) (rle : Rle T) (startIndex endIndex : Nat) (value : T) : Option (Rle T) :=
  (rle.checkIndices startIndex endIndex).map (fun endIndex =>
    rle.replaceUnchecked width startIndex endIndex [⟨value, endIndex - startIndex⟩])

-- The inner loop of _compact, once two equal neighbours were found.
def compactFrom (width : Nat) : Run T → List (Run T) → List (Run T)
  | ref, [] => [ref]
  | ref, run :: rest =>
    if ref.value = run.value then compactFrom width { ref with length := sizeAdd width ref.length run.length } rest
    else ref :: compactFrom width run rest

def compact (width : Nat) : List (Run T) → List (Run T)
  | [] => []
  | [run] => [run]
  | ref :: run :: rest =>
    if ref.value = run.value then compactFrom width { ref with length := sizeAdd width ref.length run.length } rest
    else ref :: compact width (run :: rest)

def replaceValues (width : Nat) (rle : Rle T) (oldValue newValue : T) : Rle T :=
  { rle with
    runs := compact width (rle.runs.map (fun run => if run.value = oldValue then { run with value := newValue } else run)) }

omit [DecidableEq T] in
-- Growing an empty value fails an Expects.
def resizeTrailingExtent (width : Nat) (rle : Rle T) (newSize : Nat) : Option (Rle T) :=
  if newSize = 0 then some ⟨[], 0⟩
  else if newSize < rle.total then
    let found := scan width rle.runs startScan (newSize - 1)
    let runs := setLength rle.runs found.1.it (sizeAdd width found.2 1)
    some ⟨eraseRange runs (found.1.it + 1) runs.length, newSize⟩
  else if newSize > rle.total then
    if rle.runs.isEmpty then none
    else
      some ⟨rle.runs.modify (rle.runs.length - 1)
        (fun run => { run with length := sizeAdd width run.length (newSize - rle.total) }), newSize⟩
  else some { rle with total := newSize }

end Rle

open List

section

-- index falls pos elements into the first run of after, or is the end.
structure Reached (runs : List (Run T)) (index : Nat) (before after : List (Run T)) (pos : Nat) : Prop where
  split : runs = before ++ after
  position : index = totalLength before + pos
  inside : ∀ run ∈ after.head?, pos < run.length
  ended : after = [] → pos = 0

theorem scan_runs_reaches (width : Nat) (runs : List (Run T)) (scanner : Scanner) (index : Nat)
    (bound : scanner.total + totalLength runs < 2 ^ width) (low : scanner.total ≤ index)
    (high : index ≤ scanner.total + totalLength runs) : ∃ before after pos, scanRuns width runs scanner index =
        (⟨scanner.it + before.length, scanner.total + totalLength before⟩, pos) ∧
      Reached runs (index - scanner.total) before after pos := by
  induction runs generalizing scanner with
  | nil =>
    refine ⟨[], [], 0, rfl, rfl, ?_, by simp, fun _ => rfl⟩
    rw [total_length_nil] at high ⊢
    omega
  | cons run rest ih =>
    rw [total_length_cons] at bound high
    have plain : sizeAdd width scanner.total run.length = scanner.total + run.length :=
      Nat.mod_eq_of_lt (by omega)
    by_cases stops : sizeAdd width scanner.total run.length > index
    · refine ⟨[], run :: rest, index - scanner.total, ?_, rfl, by simp, ?_, by simp⟩
      · simp [scanRuns, stops]
      · simp only [head?_cons, Option.mem_def, Option.some.injEq, forall_eq']
        omega
    · obtain ⟨before, after, pos, scanned, reached⟩ :=
        ih ⟨scanner.it + 1, sizeAdd width scanner.total run.length⟩ (by simp only; omega) (by simp only; omega)
          (by simp only; omega)
      refine ⟨run :: before, after, pos, ?_, ?_, ?_, reached.inside, reached.ended⟩
      · rw [scanRuns, if_neg stops, scanned]
        simp only [length_cons, total_length_cons, Prod.mk.injEq, Scanner.mk.injEq, and_true]
        omega
      · simp [reached.split]
      · have position := reached.position
        simp only [plain] at position
        rw [total_length_cons]
        omega

theorem scan_reaches (width : Nat) (runs : List (Run T)) (index : Nat) (bound : totalLength runs < 2 ^ width)
    (inside : index ≤ totalLength runs) :
    ∃ before after pos, scan width runs startScan index = (⟨before.length, totalLength before⟩, pos) ∧
      Reached runs index before after pos := by
  obtain ⟨before, after, pos, scanned, reached⟩ :=
    scan_runs_reaches width runs startScan index (by simpa [startScan] using bound) (Nat.zero_le _)
      (by simpa [startScan] using inside)
  exact ⟨before, after, pos, by simpa [scan, startScan] using scanned, by simpa [startScan] using reached⟩

variable {runs before after : List (Run T)}

theorem scan_again_reaches (width : Nat) (index : Nat) (bound : totalLength runs < 2 ^ width)
    (reached : Reached runs start before after pos) (later : start ≤ index) (inside : index ≤ totalLength runs) :
    ∃ between rest pos', scan width runs ⟨before.length, totalLength before⟩ index =
        (⟨(before ++ between).length, totalLength (before ++ between)⟩, pos') ∧
      after = between ++ rest ∧ Reached runs index (before ++ between) rest pos' := by
  have split := reached.split
  have position := reached.position
  have total : totalLength runs = totalLength before + totalLength after := by simp [split]
  obtain ⟨between, rest, pos', scanned, further⟩ :=
    scan_runs_reaches width after ⟨before.length, totalLength before⟩ index (by simp only; omega) (by simp only; omega)
      (by simp only; omega)
  refine ⟨between, rest, pos', ?_, further.split, ?_, ?_, further.inside, further.ended⟩
  · rw [scan, split]
    simpa using scanned
  · simp [split, further.split]
  · have offset := further.position
    simp only at offset
    rw [total_length_append]
    omega

def keptPart (after : List (Run T)) (pos : Nat) : List (Run T) :=
  match after with
  | [] => []
  | run :: _ => if pos = 0 then [] else [⟨run.value, pos⟩]

def restPart (after : List (Run T)) (pos : Nat) : List (Run T) :=
  match after with
  | [] => []
  | run :: rest => if pos = 0 then run :: rest else ⟨run.value, run.length - pos⟩ :: rest

theorem kept_length (reached : Reached runs index before after pos) : totalLength (before ++ keptPart after pos) = index := by
  rw [reached.position, total_length_append]
  cases after with
  | nil => rw [reached.ended rfl]; rfl
  | cons run rest => by_cases whole : pos = 0 <;> simp [keptPart, whole]

theorem reached_cut (positive : Positive runs) (reached : Reached runs index before after pos) :
    cutRuns index runs = (before ++ keptPart after pos, restPart after pos) := by
  obtain ⟨rfl, rfl, inside, ended⟩ := reached
  induction before with
  | nil =>
    cases after with
    | nil => simp [cutRuns, keptPart, restPart]
    | cons run rest =>
      have short : ¬ run.length ≤ pos := Nat.not_le.mpr (inside run (by simp))
      by_cases none : pos = 0
      · simp [cutRuns, keptPart, restPart, none] at short ⊢
        omega
      · simp [cutRuns, keptPart, restPart, none, short]
  | cons run rest ih =>
    rw [cons_append, positive_cons] at positive
    have whole : run.length ≤ totalLength (run :: rest) + pos := by
      rw [total_length_cons]
      omega
    have left : totalLength (run :: rest) + pos - run.length = totalLength rest + pos := by
      rw [total_length_cons]
      omega
    rw [cons_append, cutRuns, if_pos whole, left, ih positive.2]
    rfl

end

open Option

-- What holds for the values of an encoding before an operation and for the new
-- values holds afterwards. The encoding need not be well-formed for that.
def AllValues (P : T → Prop) (runs : List (Run T)) : Prop := ∀ run ∈ runs, P run.value

variable {runs : List (Run T)}

section

variable {P : T → Prop}

theorem all_values_append (first : AllValues P left) (second : AllValues P right) : AllValues P (left ++ right) := by
  intro run member
  rcases mem_append.mp member with before | after
  · exact first run before
  · exact second run after

theorem all_values_take (all : AllValues P runs) (count : Nat) : AllValues P (runs.take count) :=
  fun run member => all run (mem_of_mem_take member)

theorem all_values_drop (all : AllValues P runs) {count : Nat} : AllValues P (runs.drop count) :=
  fun run member => all run (mem_of_mem_drop member)

theorem all_values_erase (all : AllValues P runs) : AllValues P (eraseRange runs first last) :=
  all_values_append (all_values_take all first) (all_values_drop all)

variable {position : Nat}

theorem all_values_insert (all : AllValues P runs) (others : AllValues P extra) : AllValues P (insertAt runs position extra) :=
  all_values_append (all_values_append (all_values_take all position) others) (all_values_drop all)

theorem all_values_overwrite (all : AllValues P runs) (others : AllValues P source) (position : Nat) :
    AllValues P (overwriteAt runs position source) :=
  all_values_append (all_values_append (all_values_take all position) others) (all_values_drop all)

theorem all_values_modify (all : AllValues P runs) {length : Run T → Nat} :
    AllValues P (runs.modify position (fun run => { run with length := length run })) := by
  intro run member
  obtain ⟨index, isRun⟩ := mem_iff_getElem?.mp member
  rw [getElem?_modify] at isRun
  obtain ⟨before, isBefore, changed⟩ := map_eq_some_iff.mp isRun
  have holds := all before (mem_of_getElem? isBefore)
  rw [← changed]
  split <;> exact holds

variable {length : Nat}

theorem all_values_set_length (all : AllValues P runs) : AllValues P (Rle.setLength runs position length) :=
  all_values_modify all

theorem all_values_shortened (all : AllValues P runs) {choice : Prop} [Decidable choice] :
    AllValues P (if choice then Rle.setLength runs position length else runs) := by
  split
  · exact all_values_set_length all
  · exact all

theorem all_values_replicate (holds : P run.value) {count : Nat} : AllValues P (List.replicate count run) := by
  intro other member
  rw [eq_of_mem_replicate member]
  exact holds

end

variable {rle : Rle T} {startIndex endIndex : Nat}

theorem slice_all_values {width : Nat} (all : AllValues P rle.runs) : AllValues P (rle.slice width startIndex endIndex).runs := by
  rw [Rle.slice]
  split
  · exact fun _ member => nomatch member
  · exact all_values_modify (all_values_modify (all_values_take (all_values_drop all) _))

variable {width : Nat}

theorem resize_all_values {resized : Rle T} (all : AllValues P rle.runs) {newSize : Nat}
    (succeeded : rle.resizeTrailingExtent width newSize = some resized) : AllValues P resized.runs := by
  rw [Rle.resizeTrailingExtent] at succeeded
  split at succeeded
  · cases succeeded
    exact fun _ member => nomatch member
  split at succeeded
  · cases succeeded
    exact all_values_erase (all_values_set_length all)
  split at succeeded
  · split at succeeded
    · cases succeeded
    · cases succeeded
      exact all_values_modify all
  · cases succeeded
    exact all

variable [DecidableEq T] {P : T → Prop}

theorem remove_all_values (all : AllValues P rle.runs) : AllValues P (rle.removeUnchecked width startIndex endIndex).runs := by
  exact all_values_erase (all_values_shortened (all_values_shortened (all_values_shortened all)))

omit [DecidableEq T] in
theorem place_all_values (all : AllValues P runs) (others : AllValues P replacements) (spares : P spare.value)
    (last : ∀ run ∈ trailer, P run.value) : AllValues P (Rle.placeRuns spare runs begin finish replacements trailer) := by
  have copied := all_values_overwrite all (all_values_take others (min (finish - begin) replacements.length)) begin
  cases trailer with
  | none =>
    simp only [Rle.placeRuns]
    split
    · exact all_values_erase copied
    · exact all_values_insert copied (all_values_drop others)
  | some run =>
    simp only [Rle.placeRuns]
    split
    · exact all_values_erase copied
    intro other member
    rcases mem_or_eq_of_mem_set member with before | rfl
    · exact all_values_overwrite (all_values_insert copied (all_values_replicate spares)) (all_values_drop others) _ other before
    · exact last other rfl

omit [DecidableEq T] in
theorem splice_all_values (all : AllValues P runs)
    (replacing : AllValues P (front :: others)) : AllValues P (Rle.spliceRuns runs beginning ending front others).1 := by
  refine place_all_values (all_values_shortened (all_values_shortened all)) replacing (replacing front mem_cons_self) ?_
  intro run member
  split at member
  · obtain ⟨stored, isStored, changed⟩ := map_eq_some_iff.mp member
    rw [← changed]
    exact all stored (mem_of_getElem? isStored)
  · cases member

theorem replace_all_values (all : AllValues P rle.runs)
    (replacing : AllValues P replacements) : AllValues P (rle.replaceUnchecked width startIndex endIndex replacements).runs := by
  cases replacements with
  | nil => exact remove_all_values all
  | cons front others =>
    have added : ∀ (runs : List (Run T)) (position length : Nat), AllValues P runs →
        AllValues P (Rle.addLength width runs position length) := by
      intro runs position length holds
      rw [Rle.addLength]
      split
      · exact all_values_modify holds
      · exact holds
    exact added _ _ _ (added _ _ _ (splice_all_values all replacing))

theorem replace_value_all_values (all : AllValues P rle.runs) (holds : P value)
    (succeeded : rle.replaceValue width startIndex endIndex value = some replaced) : AllValues P replaced.runs := by
  obtain ⟨last, _, isReplaced⟩ := map_eq_some_iff.mp succeeded
  rw [← isReplaced]
  refine replace_all_values all ?_
  intro run member
  rw [mem_singleton.mp member]
  exact holds

theorem replace_runs_all_values (all : AllValues P rle.runs) (replacing : AllValues P replacements)
    (succeeded : rle.replaceRuns width startIndex endIndex replacements = some replaced) : AllValues P replaced.runs := by
  obtain ⟨last, _, isReplaced⟩ := map_eq_some_iff.mp succeeded
  rw [← isReplaced]
  exact replace_all_values all replacing

end Cogterm.Til
