import Mathlib
import RecordFilter.Command.Run
import RecordFilter.Proofs.Filter.RoundTrip
import RecordFilter.Proofs.Matching.Truth
import RecordFilter.Proofs.Text.Percent

/-!
# Report — what is written for records, up to the first fault

A task that tests records reads its expression and all its sources first, so a bad expression or source lets
nothing be written. What an expression spells is well formed, so only a pattern that is refused can keep a record
from its outcome, and then the records before it have been reported. Whether the records themselves are written or
a line for each, the same records pass, and the task ends the same.

* `Command.Gathers`: the records of all sources, one source after the other.
* `Command.wellFormed_of_readExpression`: what an expression spells can be tested.
* `Command.outcomes_or_fault`: records all have outcomes, or there is a first one without.
* `Command.report_append`, `Command.filterAuxM_append`: records that have outcomes, in front of others.
* `Command.Task.run_of_outcomes`, `Command.Task.run_of_fault`: a task whose records all have outcomes, and one that
  comes to a fault.
* `Command.Task.run_records`: the two ways to report records, side by side.
-/

namespace RecordFilter

namespace Command

/-! ## Sources -/

/-- The records of a task: those of the input if no file is named, otherwise those of the files, one file after
the other. -/
inductive Gathers (w : Surroundings) (lines : Bool) : List String → List Json → Prop
  | input {records : List Json} (h : readRecords lines inputName w.input = .ok records) :
      Gathers w lines [] records
  | files {files : List String} {parts : List (List Json)} (hne : files ≠ [])
      (h : List.Forall₂ (fun path part => readFileRecords w.directory lines path = .ok part) files parts) :
      Gathers w lines files parts.flatten

theorem readFiles_eq_ok_iff {d : Directory} {lines : Bool} {files : List String} {records : List Json} :
    readFiles d lines files = .ok records ↔
      ∃ parts, List.Forall₂ (fun path part => readFileRecords d lines path = .ok part) files parts ∧
        records = parts.flatten := by
  induction files generalizing records with
  | nil => simp [readFiles, eq_comm]
  | cons path rest ih =>
    rw [readFiles]
    cases hpart : readFileRecords d lines path with
    | error e => simp [List.forall₂_cons_left_iff, hpart]
    | ok part =>
      constructor
      · intro h
        obtain ⟨others, hothers, rfl⟩ := ok_of_map h
        obtain ⟨parts, hparts, rfl⟩ := ih.mp hothers
        exact ⟨part :: parts, .cons hpart hparts, rfl⟩
      · rintro ⟨parts, hparts, rfl⟩
        cases hparts with
        | cons hfirst hparts =>
          obtain rfl : part = _ := Except.ok.inj (hpart.symm.trans hfirst)
          rw [ih.mpr ⟨_, hparts, rfl⟩]
          rfl

theorem taskRecords_eq_ok_iff {w : Surroundings} {files : List String} {lines : Bool} {records : List Json} :
    taskRecords w files lines = .ok records ↔ Gathers w lines files records := by
  cases files with
  | nil =>
    constructor
    · exact .input
    · rintro (h | ⟨hne, -⟩)
      · exact h
      · exact absurd rfl hne
  | cons path rest =>
    rw [taskRecords, if_neg (by simp), readFiles_eq_ok_iff]
    constructor
    · rintro ⟨parts, h, rfl⟩
      exact .files (by simp) h
    · rintro ⟨⟩
      exact ⟨_, ‹_›, rfl⟩

/-! ## Expressions -/

/-- **What an expression spells is well formed at every level**, so that it can be tested. -/
theorem wellFormed_of_readExpression {s : Settings} {text : String} {encoded : Bool} {f : Filter}
    (h : readExpression s text encoded = .ok f) : f.WellFormed := by
  rw [readExpression] at h
  split at h
  · exact (Filter.Built.decoded (ok_of_mapError h)).wellFormed
  · exact (Filter.Built.parsed (ok_of_mapError h)).wellFormed

/-! ## Reports -/

section Reports

variable {compiler : Wildcard.Compiler} {f : Filter} {fault : Malformed} {passes : Json → Bool}
  {records done rest : List Json}

/-- Either all of the records have outcomes, or there is a first one without. -/
theorem outcomes_or_fault (compiler : Wildcard.Compiler) (f : Filter) (records : List Json) :
    (∀ record ∈ records, f.test compiler record = .ok (f.truth (·.holds record))) ∨
      ∃ done record rest fault, records = done ++ record :: rest ∧
        (∀ r ∈ done, f.test compiler r = .ok (f.truth (·.holds r))) ∧ f.test compiler record = .error fault := by
  induction records with
  | nil => exact .inl (by simp)
  | cons record rest ih =>
    cases h : f.test compiler record with
    | error fault => exact .inr ⟨[], record, rest, fault, rfl, by simp, h⟩
    | ok b =>
      have hrecord : f.test compiler record = .ok (f.truth (·.holds record)) :=
        h.trans (congrArg Except.ok (Filter.truth_of_test h).symm)
      rcases ih with hrest | ⟨done, stopped, others, fault, rfl, hdone, hfault⟩
      · exact .inl (List.forall_mem_cons.mpr ⟨hrecord, hrest⟩)
      · exact .inr ⟨record :: done, stopped, others, fault, rfl, List.forall_mem_cons.mpr ⟨hrecord, hdone⟩, hfault⟩

/-- Records that have outcomes are reported in front of the others, and counted with them. -/
theorem report_append (h : ∀ record ∈ done, f.test compiler record = .ok (passes record)) (s : Settings)
    (lines select : Bool) (rest : List Json) :
    report compiler s lines select f (done ++ rest) =
      (String.join (done.map fun record => reportRecord s lines select record (passes record)) ++
          (report compiler s lines select f rest).1,
        (report compiler s lines select f rest).2.map (· + done.countP passes)) := by
  induction done with
  | nil =>
    rw [List.nil_append, List.map_nil, List.countP_nil]
    obtain ⟨text, count⟩ := report compiler s lines select f rest
    cases count <;> exact congrArg (·, _) String.empty_append.symm
  | cons record done ih =>
    rw [List.forall_mem_cons] at h
    rw [List.cons_append, report, h.1, ih h.2, List.map_cons, String.join_cons, String.append_assoc, List.countP_cons]
    obtain ⟨text, count⟩ := report compiler s lines select f rest
    cases count <;> cases passes record <;> rfl

theorem report_eq (h : ∀ record ∈ records, f.test compiler record = .ok (passes record)) (s : Settings)
    (lines select : Bool) :
    report compiler s lines select f records =
      (String.join (records.map fun record => reportRecord s lines select record (passes record)),
        .ok (records.countP passes)) := by
  have hreport := report_append h s lines select []
  rw [List.append_nil] at hreport
  rw [hreport]
  simp [report, Except.map]

/-- A report ends at a fault, behind what it says of the records before it. -/
theorem report_of_error (h : ∀ record ∈ done, f.test compiler record = .ok (passes record)) {record : Json}
    (hfault : f.test compiler record = .error fault) (s : Settings) (lines select : Bool) (rest : List Json) :
    report compiler s lines select f (done ++ record :: rest) =
      (String.join (done.map fun record => reportRecord s lines select record (passes record)), .error fault) := by
  rw [report_append h, report, hfault]
  exact congrArg (·, Except.error fault) String.append_empty

theorem filterAuxM_append (h : ∀ record ∈ done, f.test compiler record = .ok (passes record))
    (rest accepted : List Json) :
    (done ++ rest).filterAuxM (fun record => f.test compiler record) accepted =
      rest.filterAuxM (fun record => f.test compiler record) ((done.filter passes).reverse ++ accepted) := by
  induction done generalizing accepted with
  | nil => rfl
  | cons record done ih =>
    rw [List.forall_mem_cons] at h
    rw [List.cons_append, List.filterAuxM, h.1, List.filter_cons]
    cases passes record with
    | false => exact ih h.2 accepted
    | true => exact (ih h.2 _).trans (by simp)

/-- A filter selects the records that pass, if all have outcomes. -/
theorem select_eq (h : ∀ record ∈ records, f.test compiler record = .ok (passes record)) :
    f.select compiler records = .ok (records.filter passes) := by
  have haccepted := filterAuxM_append h [] []
  rw [List.append_nil, List.append_nil] at haccepted
  rw [Filter.select, List.filterM, haccepted]
  exact congrArg Except.ok (List.reverse_reverse _)

/-- A filter selects nothing if it comes to a fault. -/
theorem select_of_error (h : ∀ record ∈ done, f.test compiler record = .ok (passes record)) {record : Json}
    (hfault : f.test compiler record = .error fault) (rest : List Json) :
    f.select compiler (done ++ record :: rest) = .error fault := by
  rw [Filter.select, List.filterM, filterAuxM_append h, List.filterAuxM, hfault]
  rfl

end Reports

/-- To write the records that pass is to write for each record what is written of it if it passes. -/
theorem join_reportRecord (s : Settings) (lines : Bool) (passes : Json → Bool) (records : List Json) :
    String.join (records.map fun record => reportRecord s lines true record (passes record)) =
      String.join ((records.filter passes).map fun record =>
        outputLine (if lines then record.compact else writeJson s record)) := by
  induction records with
  | nil => rfl
  | cons record rest ih =>
    rw [List.map_cons, String.join_cons, ih, List.filter_cons]
    cases passes record with
    | false => exact String.empty_append
    | true => exact String.join_cons.symm

/-! ## Tasks -/

section Tasks

variable {s : Settings} {w : Surroundings} {text : String} {files : List String} {lines encoded : Bool}

/-- A task whose expression is no filter, or one of whose sources has no records, fails and writes nothing. -/
theorem Task.run_of_no_records
    (h : ¬ ∃ f records, readExpression s text encoded = .ok f ∧ Gathers w lines files records)
    (compiler : Wildcard.Compiler) (exitStatus : Bool) :
    ∃ e, ∀ select, Task.run compiler s w (.records text files lines select exitStatus encoded) =
      ⟨"", w.directory, .error e⟩ := by
  simp only [Task.run, runRecords]
  cases hf : readExpression s text encoded with
  | error e => exact ⟨e, fun _ => rfl⟩
  | ok f =>
    cases hrecords : taskRecords w files lines with
    | error e => exact ⟨.input e, fun _ => rfl⟩
    | ok records => exact absurd ⟨f, records, hf, taskRecords_eq_ok_iff.mp hrecords⟩ h

variable {compiler : Wildcard.Compiler} {f : Filter} {passes : Json → Bool} {records : List Json}
  (hf : readExpression s text encoded = .ok f) (hrecords : Gathers w lines files records)

include hf hrecords

/-- A task reports its records, and counts those that pass. -/
theorem Task.run_eq (compiler : Wildcard.Compiler) (select exitStatus : Bool) :
    Task.run compiler s w (.records text files lines select exitStatus encoded) =
      ⟨(report compiler s lines select f records).1, w.directory,
        ((report compiler s lines select f records).2.mapError (.malformed f)).map fun count =>
          if exitStatus && count == 0 then noMatchStatus else 0⟩ := by
  rw [Task.run, runRecords, hf, taskRecords_eq_ok_iff.mpr hrecords]
  dsimp only
  cases (report compiler s lines select f records).2 <;> rfl

theorem Task.run_of_outcomes (h : ∀ record ∈ records, f.test compiler record = .ok (passes record))
    (select exitStatus : Bool) :
    Task.run compiler s w (.records text files lines select exitStatus encoded) =
      ⟨String.join (records.map fun record => reportRecord s lines select record (passes record)), w.directory,
        .ok (if exitStatus && records.countP passes == 0 then noMatchStatus else 0)⟩ := by
  rw [Task.run_eq hf hrecords, report_eq h]
  rfl

omit hrecords in
theorem Task.run_of_fault {done rest : List Json} {record : Json} {fault : Malformed}
    (hrecords : Gathers w lines files (done ++ record :: rest))
    (hdone : ∀ record ∈ done, f.test compiler record = .ok (passes record))
    (hfault : f.test compiler record = .error fault) (select exitStatus : Bool) :
    Task.run compiler s w (.records text files lines select exitStatus encoded) =
      ⟨String.join (done.map fun record => reportRecord s lines select record (passes record)), w.directory,
        .error (.malformed f fault)⟩ := by
  rw [Task.run_eq hf hrecords, report_of_error hdone hfault]
  rfl

end Tasks

/-- Both ways to report records end the same. -/
theorem Task.run_result_eq (compiler : Wildcard.Compiler) (s : Settings) (w : Surroundings) (text : String)
    (files : List String) (lines select select' exitStatus encoded : Bool) :
    (Task.run compiler s w (.records text files lines select exitStatus encoded)).result =
      (Task.run compiler s w (.records text files lines select' exitStatus encoded)).result := by
  by_cases hgiven : ∃ f records, readExpression s text encoded = .ok f ∧ Gathers w lines files records
  · obtain ⟨f, records, hf, hrecords⟩ := hgiven
    rcases outcomes_or_fault compiler f records with hpasses | ⟨done, record, rest, fault, rfl, hdone, hfault⟩
    · rw [Task.run_of_outcomes hf hrecords hpasses, Task.run_of_outcomes hf hrecords hpasses]
    · rw [Task.run_of_fault hf hrecords hdone hfault, Task.run_of_fault hf hrecords hdone hfault]
  · obtain ⟨e, hrun⟩ := Task.run_of_no_records hgiven compiler exitStatus
    rw [hrun select, hrun select']

/-- The exit status says that no record passes only where that was asked for. -/
theorem exitStatus_iff (exitStatus : Bool) (passes : Json → Bool) (records : List Json) :
    (if exitStatus && records.countP passes == 0 then noMatchStatus else 0) = 1 ↔
      exitStatus = true ∧ ∀ record ∈ records, passes record = false := by
  simp [noMatchStatus, List.countP_eq_zero]

/-- **What is written for records, in both ways.** Whether a task writes the records that pass or a line for every
record, it ends with the same exit status or the same error. Where its expression is no filter or a source has no
records, it fails and writes nothing. Otherwise the records are those of all sources, one source after the other, and
the task succeeds if the patterns of the filter compile. If it succeeds, the lines say of each record, in order,
whether it passes; the records written are those that the filter selects, which are those whose line says so, in order;
and the exit status is 1 exactly if that was asked for and no line says so. If it fails, then for a pattern of the
filter that is refused, for some record, where the selection fails as well; and it has written what it writes for the
records before that one. -/
theorem Task.run_records (compiler : Wildcard.Compiler) (s : Settings) (w : Surroundings) (text : String)
    (files : List String) (lines exitStatus encoded : Bool) :
    let plain := Task.run compiler s w (.records text files lines false exitStatus encoded)
    let selected := Task.run compiler s w (.records text files lines true exitStatus encoded)
    plain.result = selected.result ∧
    ((¬ ∃ f records, readExpression s text encoded = .ok f ∧ Gathers w lines files records) →
      (∃ e, plain.result = .error e) ∧ plain.output = "" ∧ selected.output = "") ∧
    ∀ f records, readExpression s text encoded = .ok f → Gathers w lines files records →
      (f.Compiles compiler → ∃ status, plain.result = .ok status) ∧
      ∃ passes : Json → Bool,
        (∀ status, plain.result = .ok status →
          (∀ record ∈ records, f.test compiler record = .ok (passes record)) ∧
          plain.output =
            String.join (records.map fun record => outputLine (if passes record then "true" else "false")) ∧
          f.select compiler records = .ok (records.filter passes) ∧
          selected.output = String.join ((records.filter passes).map fun record =>
            outputLine (if lines then record.compact else writeJson s record)) ∧
          (status = 1 ↔ exitStatus = true ∧ ∀ record ∈ records, passes record = false) ∧
          (status = 0 ∨ status = 1)) ∧
        ∀ e, plain.result = .error e →
          ∃ done record rest fault, records = done ++ record :: rest ∧
            (∀ r ∈ done, f.test compiler r = .ok (passes r)) ∧ f.test compiler record = .error fault ∧
            f.Refusal compiler fault ∧ e = .malformed f fault ∧ f.select compiler records = .error fault ∧
            plain.output =
              String.join (done.map fun record => outputLine (if passes record then "true" else "false")) ∧
            selected.output = String.join ((done.filter passes).map fun record =>
              outputLine (if lines then record.compact else writeJson s record)) := by
  intro plain selected
  refine ⟨Task.run_result_eq .., fun hnone => ?_, fun f records hf hrecords => ?_⟩
  · obtain ⟨e, hrun⟩ := Task.run_of_no_records hnone compiler exitStatus
    rw [show plain = _ from hrun false, show selected = _ from hrun true]
    exact ⟨⟨e, rfl⟩, rfl, rfl⟩
  rcases outcomes_or_fault compiler f records with hpasses | ⟨done, record, rest, fault, rfl, hdone, hfault⟩
  · have hrun := Task.run_of_outcomes hf hrecords hpasses
    rw [show plain = _ from hrun false exitStatus, show selected = _ from hrun true exitStatus]
    refine ⟨fun _ => ⟨_, rfl⟩, fun record => f.truth (·.holds record), ?_, ?_⟩
    · rintro status ⟨⟩
      refine ⟨hpasses, rfl, select_eq hpasses, join_reportRecord s lines _ records,
        exitStatus_iff exitStatus _ records, ?_⟩
      split
      · exact .inr rfl
      · exact .inl rfl
    · rintro e ⟨⟩
  · have hrun := Task.run_of_fault hf hrecords hdone hfault
    have hrefusal : f.Refusal compiler fault := Filter.refusal_of_test (wellFormed_of_readExpression hf) hfault
    rw [show plain = _ from hrun false exitStatus, show selected = _ from hrun true exitStatus]
    refine ⟨fun hcompiles => absurd hrefusal hcompiles.not_refusal, fun record => f.truth (·.holds record), ?_, ?_⟩
    · rintro status ⟨⟩
    · rintro e ⟨⟩
      exact ⟨done, record, rest, fault, rfl, hdone, hfault, hrefusal, rfl, select_of_error hdone hfault rest, rfl,
        join_reportRecord s lines _ done⟩

/-- Two records and then one with a string. There is a line for each of them, and the lines are those of the records
that the filter selects; a file without a name cannot be opened, and both ways then end with an error and write
nothing. Where every pattern is refused, a pattern is matched against the string only: the task ends with that fault,
and the lines are those of the two records before the string. -/
theorem Task.run_records_input :
    ∃ (w : Surroundings) (records : List Json), Gathers w false [] records ∧
      (∃ (f : Filter) (passes : Json → Bool), f.select .standard records = .ok (records.filter passes) ∧
        String.join (records.map fun record => outputLine (if passes record then "true" else "false")) =
          "false\ntrue\nfalse\n" ∧ ∃ record ∈ records, passes record = true) ∧
      (Task.run .standard {} w (.records "/n gt 1" [""] false false true false)).output = "" ∧
      (Task.run .standard {} w (.records "/n gt 1" [""] false true true false)).output = "" ∧
      ∃ (f : Filter) (done rest : List Json) (record : Json) (fault : Malformed) (passes : Json → Bool),
        records = done ++ record :: rest ∧ f.test ⟨fun _ => some "no"⟩ record = .error fault ∧
        (RunError.malformed f fault).message =
          "Failed to evaluate filter '/m like \"_\"': pattern '_' failed to compile: no" ∧
        String.join (done.map fun record => outputLine (if passes record then "true" else "false")) =
          "false\nfalse\n" := by
  let w : Surroundings :=
    { directory := { entries := [] }
      input := Text.Utf8.encode "[\x7b\"n\": 1\x7d, \x7b\"n\": 2\x7d, \x7b\"m\": \"x\"\x7d]" }
  have hread (text : String) (h : (readExpression {} text false).toOption.isSome = true) :
      ∃ f, readExpression {} text false = .ok f := by
    cases hf : readExpression {} text false with
    | ok f => exact ⟨f, rfl⟩
    | error e => rw [hf] at h; cases h
  obtain ⟨records, hrecords⟩ : ∃ records, Gathers w false [] records := by
    have hsome : (taskRecords w [] false).toOption.isSome = true := by decide +kernel
    cases h : taskRecords w [] false with
    | ok records => exact ⟨records, taskRecords_eq_ok_iff.mp h⟩
    | error e => rw [h] at hsome; cases hsome
  have hunopened : ¬ ∃ f records, readExpression {} "/n gt 1" false = .ok f ∧ Gathers w false [""] records := by
    have hnone : (taskRecords w [""] false).toOption.isNone = true := by decide +kernel
    rintro ⟨-, records, -, h⟩
    rw [taskRecords_eq_ok_iff.mpr h] at hnone
    cases hnone
  obtain ⟨-, hempty, -⟩ := run_records .standard {} w "/n gt 1" [""] false true false
  obtain ⟨-, hplain, hselected⟩ := hempty hunopened
  refine ⟨w, records, hrecords, ?_, hplain, hselected, ?_⟩
  · let plain := Task.run .standard {} w (.records "/n gt 1" [] false false true false)
    have hresult : plain.result.mapError RunError.message = .ok 0 := by decide +kernel
    have hlines : plain.output = "false\ntrue\nfalse\n" := by decide +kernel
    obtain ⟨f, hf⟩ := hread "/n gt 1" (by decide +kernel)
    obtain ⟨-, -, hreport⟩ := run_records .standard {} w "/n gt 1" [] false true false
    obtain ⟨-, passes, hok, -⟩ := hreport f records hf hrecords
    obtain ⟨-, hplain, hselect, -, hone, -⟩ := hok 0 (ok_of_mapError hresult)
    refine ⟨f, passes, hselect, hplain.symm.trans hlines, ?_⟩
    by_contra hno
    exact absurd (hone.mpr ⟨rfl, by simpa using hno⟩) (by decide)
  · let plain := Task.run ⟨fun _ => some "no"⟩ {} w (.records "/m like \"_\"" [] false false true false)
    have hresult : plain.result.mapError RunError.message =
        .error "Failed to evaluate filter '/m like \"_\"': pattern '_' failed to compile: no" := by
      decide +kernel
    have hlines : plain.output = "false\nfalse\n" := by decide +kernel
    obtain ⟨f, hf⟩ := hread "/m like \"_\"" (by decide +kernel)
    obtain ⟨-, -, hreport⟩ := run_records ⟨fun _ => some "no"⟩ {} w "/m like \"_\"" [] false true false
    obtain ⟨-, passes, -, hstopped⟩ := hreport f records hf hrecords
    cases h : plain.result with
    | ok status => rw [h] at hresult; cases hresult
    | error e =>
      obtain ⟨done, record, rest, fault, hsplit, -, hfault, -, rfl, -, hplain, -⟩ := hstopped e h
      rw [h] at hresult
      exact ⟨f, done, rest, record, fault, passes, hsplit, hfault, Except.error.inj hresult,
        hplain.symm.trans hlines⟩

/-- The first record has no string and passes no test, the second one has a string, and the pattern of 50,000 marks is
refused: a line has been written when the task ends with an error. -/
theorem Task.run_records_partial :
    ∃ (a : FieldPath) (f : Filter) (w : Surroundings), FieldPath.ofText "/a" = .ok a ∧
      f.statements = [⟨none, .clause ⟨.field a, .like, .like (Wildcard.ones 50000), rfl⟩⟩] ∧
      w.input = Text.Utf8.encode "[\x7b\"a\": 1\x7d, \x7b\"a\": \"x\"\x7d]" ∧
      Task.run .standard {} w (.records f.text [] false false false false) =
        ⟨"false\n", w.directory,
          .error (.malformed f (.refusedPattern (Wildcard.ones 50000).pattern Wildcard.sizeMessage))⟩ := by
  let a : FieldPath := .ofKey "a" (by decide +kernel)
  let like : Clause := ⟨.field a, .like, .like (Wildcard.ones 50000), rfl⟩
  let f : Filter := ⟨[⟨none, .clause like⟩]⟩
  let w : Surroundings :=
    { directory := { entries := [] }
      input := Text.Utf8.encode "[\x7b\"a\": 1\x7d, \x7b\"a\": \"x\"\x7d]" }
  let first : Json := .object [("a", .number (.int 1))]
  let second : Json := .object [("a", .string "x")]
  have hwritable : f.Writable := by
    intro c hc
    obtain rfl : c = like := by simpa [f, Filter.clauses, Filter.clausesOf, Statement.clauses, Node.clauses] using hc
    refine ⟨rfl, checkString_of_fitsQuotes (Text.fitsQuotes_of_not_mem ?_)⟩
    rw [Wildcard.toList_ones, List.mem_replicate]
    simp
  have hf : readExpression {} f.text false = .ok f := by
    have hparse : Filter.parse ({} : Settings).maxDepth.toNat f.text = .ok f :=
      Filter.parse_of_writable hwritable (by decide) (by decide)
    rw [readExpression, if_neg (by decide), hparse]
    rfl
  have hrecords : Gathers w false [] ([first] ++ second :: []) := by
    have hparse : Json.parse? "[\x7b\"a\": 1\x7d, \x7b\"a\": \"x\"\x7d]" = some (.array [first, second]) := rfl
    refine .input ?_
    rw [readRecords, if_neg Bool.false_ne_true, readDocument, Text.Utf8.decode_encode]
    dsimp only
    rw [hparse]
    rfl
  have hfirst : ∀ record ∈ [first], f.test .standard record = .ok false := by
    rw [List.forall_mem_singleton]
    rfl
  have hsecond : f.test .standard second =
      .error (.refusedPattern (Wildcard.ones 50000).pattern Wildcard.sizeMessage) := by
    have hlike : like.test .standard second =
        .error (.refusedPattern (Wildcard.ones 50000).pattern Wildcard.sizeMessage) :=
      Clause.test_of_ones rfl (by decide) rfl
    rw [Filter.test, Filter.testFrom, Node.test, hlike]
    rfl
  refine ⟨a, f, w, by decide +kernel, rfl, rfl, ?_⟩
  rw [run_of_fault hf hrecords hfirst hsecond]
  rfl

end Command

end RecordFilter
