import FacetQuery.CommandLine.Run
import FacetQuery.Proofs.Batch.Schedule
import FacetQuery.Proofs.Conversion.Ends

/-!
# `FacetQuery.Proofs.CommandLine.Accounts` — a call accounts for every path

A call ends with what its reports say: an exit code, and an entry for each report on one of two streams. The
reports come from workers that take their steps in any order, and they are one for each path, in the order
of the arguments, whatever that order is. So the two streams together are a ledger of the paths
(`CommandLine.Ledger`).

The entry of a failure is one line: the path as it is spelled, and a message. That no message spans several
lines takes a look at the faults: what a run reports is one of four kinds (`Pool.told_of_finished`), and
their messages quote what they show (`Fault.Reported.singleLine`).

The error stream has a second writer. What the filter of a call shows of its log goes there as well: the events
of the conversions in front of the lines of the failures, and the notice that some path failed behind them. All
statements here say where these log lines stand and hold whatever they are. If the filter shows nothing, then
the lines of the failures are all that the stream holds (`Accounted.streams_of_silent`, `streams_of_off`).

## Contents
- `SingleLine`: texts without a break; numbers, quoted texts and messages are such.
- `Fault.Reported` and `Course.Told`: the faults that a run comes to, step by step.
- `CommandLine.Entry` and `CommandLine.Ledger`: the entries of the reports.
- `CommandLine.CanEnd`, the ends that a call can come to, and `CommandLine.Accounted`.
- `CommandLine.LogFilter.Silent`, and the streams of a call without log lines.
- `CommandLine.every_path_accounted`.
-/

namespace FacetQuery

/-! ## Texts of one line -/

/-- The text holds no line break. -/
def SingleLine (s : String) : Prop := '\n' ∉ s.toList

instance {s : String} : Decidable (SingleLine s) := inferInstanceAs (Decidable (_ ∉ _))

theorem SingleLine.append {s t : String} (hs : SingleLine s) (ht : SingleLine t) : SingleLine (s ++ t) := by
  rw [SingleLine, String.toList_append, List.mem_append]
  exact not_or.mpr ⟨hs, ht⟩

theorem singleLine_join {ss : List String} (h : ∀ s ∈ ss, SingleLine s) : SingleLine (String.join ss) := by
  rw [SingleLine, String.toList_join, List.mem_flatMap]
  rintro ⟨s, hs, hbreak⟩
  exact h s hs hbreak

theorem singleLine_intercalate {mark : String} (hmark : SingleLine mark) {ss : List String}
    (h : ∀ s ∈ ss, SingleLine s) : SingleLine (mark.intercalate ss) := by
  rw [SingleLine, String.toList_intercalate]
  induction ss with
  | nil => exact List.not_mem_nil
  | cons s ss ih =>
      rw [List.forall_mem_cons] at h
      cases ss with
      | nil => simpa [SingleLine] using h.1
      | cons t ts =>
          rw [List.map_cons, List.map_cons, List.intercalate_cons_cons, List.mem_append, List.mem_append]
          exact not_or.mpr ⟨not_or.mpr ⟨h.1, hmark⟩, ih h.2⟩

theorem digitChar_ne_break (n : Nat) : n.digitChar ≠ '\n' := by
  unfold Nat.digitChar
  simp only [apply_ite (· ≠ '\n')]
  simp

theorem not_mem_toDigits {base : Nat} (hbase : 1 < base) (n : Nat) : '\n' ∉ Nat.toDigits base n := by
  induction n using Nat.strongRecOn with
  | ind n ih =>
      by_cases hlt : n < base
      · rw [Nat.toDigits_of_lt_base hlt, List.mem_singleton]
        exact Ne.symm (digitChar_ne_break n)
      · rw [Nat.toDigits_of_base_le hbase (Nat.le_of_not_lt hlt), List.mem_append, List.mem_singleton]
        refine not_or.mpr ⟨ih _ ?_, Ne.symm (digitChar_ne_break _)⟩
        exact Nat.div_lt_self (by omega) hbase

theorem singleLine_toString (n : Nat) : SingleLine (toString n) := by
  rw [SingleLine, show (toString n).toList = Nat.toDigits 10 n from Nat.toList_repr]
  exact not_mem_toDigits (by decide) n

namespace Text

theorem singleLine_quotedChar (c : Char) : SingleLine (quotedChar c) := by
  unfold quotedChar
  repeat' split
  any_goals decide
  · next hbreak _ _ _ _ =>
      simpa [SingleLine, eq_comm] using hbreak
  · refine .append (.append (by decide) ?_) (by decide)
    rw [SingleLine, hexText, String.toList_ofList]
    exact not_mem_toDigits (by decide) _

/-- What stands between quotes is on one line. -/
theorem singleLine_quoted (s : String) : SingleLine (quoted s) := by
  refine .append (.append (by decide) (singleLine_join fun t ht => ?_)) (by decide)
  obtain ⟨c, -, rfl⟩ := List.mem_map.mp ht
  exact singleLine_quotedChar c

end Text

theorem FileFault.singleLine_message (f : FileFault) : SingleLine f.message := by
  cases f <;> decide

namespace Selection

theorem Mismatch.singleLine_alternatives {words : List String} (h : ∀ w ∈ words, SingleLine w) :
    SingleLine (alternatives words) := by
  unfold alternatives
  split
  · decide
  · exact h _ List.mem_cons_self
  · exact .append (.append (h _ List.mem_cons_self) (by decide)) (h _ (by simp))
  · next a b more _ =>
      refine singleLine_intercalate (by decide) fun w hw => ?_
      rcases List.mem_append.mp hw with hw | hw
      · exact h w ((List.dropLast_sublist _).mem hw)
      · rw [List.mem_singleton.mp hw]
        refine .append (by decide) ?_
        cases hlast : (b :: more).getLast? with
        | none => decide
        | some w => exact h w (List.mem_cons_of_mem _ (List.mem_of_getLast? hlast))

theorem Mismatch.singleLine_message (m : Mismatch) : SingleLine m.message := by
  refine .append (.append (.append (.append (.append (by decide) (singleLine_toString _)) (by decide))
    (singleLine_toString _)) (by decide)) (singleLine_alternatives fun w hw => ?_)
  obtain ⟨r, -, rfl⟩ := List.mem_map.mp hw
  cases r <;> decide

end Selection

/-! ## The faults in reports -/

/-- A conversion, or the writing of an output, can end in the fault. -/
def Fault.Reported : Fault → Prop
  | grammar _ | io _ _ | staging _ _ | outputExists _ => True
  | settings _ | invariant _ | emptyResult | form => False

/-- Such a fault is told in one line. -/
theorem Fault.Reported.singleLine {f : Fault} (h : f.Reported) : SingleLine f.message := by
  cases f with
  | grammar m => exact .append (by decide) m.singleLine_message
  | io p f | staging p f =>
      exact .append (.append (.append (by decide) (Text.singleLine_quoted _)) (by decide))
        f.singleLine_message
  | outputExists p => exact .append (by decide) (Text.singleLine_quoted _)
  | settings f => exact h.elim
  | invariant b => exact h.elim
  | emptyResult => exact h.elim
  | form => exact h.elim

/-- If the outcome is a failure, its fault is one of these. -/
def Outcome.Told : Outcome → Prop
  | .failed f => f.Reported
  | .written _ | .collected _ | .empty | .skipped _ | .cancelled => True

theorem Output.reported_of_verdict {o : Output} {r : Except FileFault Unit} {f : Fault}
    (h : o.verdict r = .error f) : f.Reported := by
  unfold Output.verdict at h
  split at h
  · exact nomatch h
  · split at h <;> cases h <;> trivial

/-- A conversion that is taken through all steps fails for its text, or comes to nothing. -/
theorem Conversion.fault_of_process {c : Conversion} {text : String} {x : Exclusions} {format : Format}
    {f : Fault} (h : (c.process text x format).value.1 = .error f) :
    (∃ m, f = .grammar m) ∨ f = .emptyResult := by
  cases hevents : Selection.events text.toList with
  | error m =>
      rw [process_of_refused hevents] at h
      cases h
      exact .inl ⟨m, rfl⟩
  | ok es =>
      obtain ⟨ss, hsel, -, -⟩ := exists_statements_of_events hevents
      rw [process_of_selectionText hsel] at h
      simp only at h
      split at h <;> cases h
      exact .inr rfl

namespace Batch

variable {b : Batch} {store : FileStore} {p : Path} {outcome : Outcome}

theorem told_of_prepare (h : (b.prepare store p).value = .inl outcome) : outcome.Told := by
  cases haccepts : b.accepts p with
  | false =>
      obtain ⟨e, hskip⟩ := prepare_of_not_accepts haccepts
      rw [hskip store] at h
      cases h
      trivial
  | true =>
      rw [prepare_of_accepts haccepts] at h
      cases hread : readInput store p with
      | error f =>
          rw [hread] at h
          cases h
          unfold readInput at hread
          cases hstore : store.read p with
          | error g =>
              rw [hstore] at hread
              cases hread
              trivial
          | ok text =>
              rw [hstore] at hread
              cases hread
      | ok text =>
          simp only [hread, rendered] at h
          split at h
          · cases h
          · next f hresult =>
              split at h <;> cases h
              · trivial
              · next hfailure =>
                  rcases Conversion.fault_of_process hresult with ⟨m, rfl⟩ | rfl
                  · trivial
                  · exact absurd rfl hfailure

theorem told_of_consider {cancelled : Bool} {earlier : List Path}
    (h : (b.consider cancelled store earlier p).value = .inl outcome) : outcome.Told := by
  unfold consider at h
  split at h
  · cases h
    trivial
  split at h
  · cases h
    trivial
  rw [value_judge] at h
  cases hprepare : (b.prepare store p).value with
  | inl o =>
      rw [hprepare] at h
      cases h
      exact told_of_prepare hprepare
  | inr rendering =>
      simp only [hprepare, settle] at h
      split at h
      · cases h
        trivial
      · split at h <;> cases h
        trivial

end Batch

/-! ## Outcomes of a run -/

namespace Course

/-- The path is not on its way to a failure that no report can hold. -/
def Told : Phase → Prop
  | .writing _ (.ended (.error f)) => f.Reported
  | .settled outcome => outcome.Told
  | _ => True

variable {b : Batch} {cancelled : Bool} {fresh : Place → Prop} {struck : Nat → Prop}
  {paths : List Path} {c d : Course}

theorem told_of_step {o : Output} {s t : FileStore} {w x : Writing}
    (h : Output.Step fresh o (s, w) (t, x)) : Told (.writing o x) := by
  cases h with
  | create | createFails | fill | fillFails => trivial
  | @move _ staging =>
      cases hverdict : o.verdict (s.moveInto staging o.path o.overwrite).1 with
      | ok _ => trivial
      | error f => exact Output.reported_of_verdict hverdict
  | moveFails f =>
      obtain ⟨g, hg⟩ := o.verdict_error f
      rw [hg]
      exact Output.reported_of_verdict hg

/-- A step leads no path to another failure. -/
theorem Step.told (hstep : Step b cancelled fresh struck paths c d) {i : Nat}
    (h : ∀ i, Told (c.phase i)) : Told (d.phase i) := by
  cases hstep with
  | take => exact phase_set_of (h i) _ _ fun _ => trivial
  | @consider j p =>
      refine phase_set_of (h i) _ _ fun _ => ?_
      cases hconsider : (b.consider cancelled c.store (paths.take j) p).value with
      | inl outcome => exact Batch.told_of_consider hconsider
      | inr o => trivial
  | write _ _ hstep _ => exact phase_set_of (P := Told) (h i) _ _ fun _ => told_of_step hstep
  | @conclude j p o r _ hj =>
      refine phase_set_of (h i) _ _ fun _ => ?_
      have hended := h j
      rw [hj] at hended
      cases r with
      | ok _ => trivial
      | error f => exact hended

theorem Steps.told {store : FileStore}
    (hsteps : Steps b cancelled fresh struck paths (start store) c) : ∀ i, Told (c.phase i) := by
  generalize hstart : start store = c₀ at hsteps
  induction hsteps with
  | refl =>
      subst hstart
      exact fun i => trivial
  | tail _ hstep ih => exact fun i => hstep.told ih

end Course

namespace Pool

/-- Every failure that a finished run reports is told in one line. -/
theorem told_of_finished {b : Batch} {fresh : Place → Prop} {struck : Nat → Prop} {paths : List Path}
    {store : FileStore} {workers : Nat} {pool : Pool} (hworkers : 0 < workers)
    (hrun : Run b false fresh struck paths (start store workers) pool) (hfinished : pool.Finished) :
    ∀ r ∈ pool.reports paths.length, r.outcome.Told := by
  obtain ⟨c, hsteps, -, -, -, hreports⟩ := course_of_finished hworkers hrun hfinished
  intro r hr
  obtain ⟨i, hi⟩ := List.mem_iff_getElem?.mp hr
  obtain ⟨outcome, hphase, hreport⟩ := hreports i _ (getElem?_of_report hworkers hrun hfinished hi)
  have htold := hsteps.told i
  rw [hphase] at htold
  rw [Option.some.inj (hi.symm.trans hreport)]
  exact htold

end Pool

namespace CommandLine

/-! ## The entries of the paths -/

/-- The two streams that a call writes to. -/
inductive Stream where
  | output | error
  deriving DecidableEq

/-- The entry of a report, and the stream that it is on. -/
inductive Entry : Report → Stream → String → Prop
  | written (p o : Path) : Entry ⟨p, .written o⟩ .output (p.text ++ " -> " ++ o.text ++ "\n")
  | collected (p : Path) (rendering : String) :
      Entry ⟨p, .collected rendering⟩ .output ("# " ++ p.text ++ "\n" ++ rendering)
  | empty (p : Path) : Entry ⟨p, .empty⟩ .output (p.text ++ ": empty, nothing written\n")
  | skipped (p : Path) (reason : SkipReason) :
      Entry ⟨p, .skipped reason⟩ .output (p.text ++ ": skipped, " ++ reason.message ++ "\n")
  | cancelled (p : Path) : Entry ⟨p, .cancelled⟩ .output (p.text ++ ": cancelled\n")
  /-- The line of a failure: the path, and a message that adds no break. -/
  | failed (p : Path) (f : Fault) (hline : SingleLine f.message) :
      Entry ⟨p, .failed f⟩ .error (p.text ++ ": " ++ f.message ++ "\n")

/-- One entry for each report, in their order. -/
structure Ledger (reports : List Report) (entries : List (Report × Stream × String)) : Prop where
  reports : entries.map (·.1) = reports
  entries : ∀ e ∈ entries, Entry e.1 e.2.1 e.2.2

/-- What a ledger has on a stream. -/
def textOn (stream : Stream) (entries : List (Report × Stream × String)) : String :=
  String.join ((entries.filter (·.2.1 = stream)).map (·.2.2))

theorem textOn_cons (stream : Stream) (e : Report × Stream × String)
    (entries : List (Report × Stream × String)) :
    textOn stream (e :: entries) = (if e.2.1 = stream then e.2.2 else "") ++ textOn stream entries := by
  by_cases h : e.2.1 = stream <;> simp [textOn, h]

/-- A report that can be told has one entry, on the error stream iff it is a failure. -/
theorem exists_entry {r : Report} (h : r.outcome.Told) : ∃ stream text, Entry r stream text ∧
    stdoutEntry r = (if stream = .output then some text else none) ∧
    stderrEntry r = (if stream = .error then some text else none) := by
  obtain ⟨p, outcome⟩ := r
  cases outcome with
  | written o => exact ⟨_, _, .written p o, rfl, rfl⟩
  | collected rendering => exact ⟨_, _, .collected p rendering, rfl, rfl⟩
  | empty => exact ⟨_, _, .empty p, rfl, rfl⟩
  | failed f => exact ⟨_, _, .failed p f h.singleLine, rfl, rfl⟩
  | skipped reason => exact ⟨_, _, .skipped p reason, rfl, rfl⟩
  | cancelled => exact ⟨_, _, .cancelled p, rfl, rfl⟩

/-- Reports that can be told have a ledger, and the streams hold what it has on them. -/
theorem exists_ledger {reports : List Report} (h : ∀ r ∈ reports, r.outcome.Told) :
    ∃ entries, Ledger reports entries ∧
      String.join (reports.filterMap stdoutEntry) = textOn .output entries ∧
      String.join (reports.filterMap stderrEntry) = textOn .error entries := by
  induction reports with
  | nil => exact ⟨[], ⟨rfl, by simp⟩, rfl, rfl⟩
  | cons r reports ih =>
      rw [List.forall_mem_cons] at h
      obtain ⟨entries, hledger, hout, herr⟩ := ih h.2
      obtain ⟨stream, text, hentry, hstdout, hstderr⟩ := exists_entry h.1
      refine ⟨(r, stream, text) :: entries, ⟨?_, ?_⟩, ?_, ?_⟩
      · rw [List.map_cons, hledger.reports]
      · exact List.forall_mem_cons.mpr ⟨hentry, hledger.entries⟩
      · rw [List.filterMap_cons, textOn_cons, hstdout, ← hout]
        cases stream <;> simp
      · rw [List.filterMap_cons, textOn_cons, hstderr, ← herr]
        cases stream <;> simp

/-! ## Filters that show nothing -/

namespace LogFilter

variable {f : LogFilter}

/-- No event is shown. -/
def Silent (f : LogFilter) : Prop := ∀ e, f.shows e = false

/-- The directive that decides is one of the filter. -/
theorem mem_of_decisive? {e : LogEvent} {d : Directive} (h : f.decisive? e = some d) : d ∈ f := by
  unfold decisive? at h
  generalize hcovering : f.filter (·.scope.covers e) = covering at h
  have hsub : ∀ d ∈ covering, d ∈ f := fun d hd => (List.mem_filter.mp (hcovering ▸ hd)).1
  -- the best directive so far is always one of those that were met
  refine List.foldlRecOn (motive := fun best => ∀ d, best = some d → d ∈ f) covering _ ?_ ?_ d h
  · intro d hd
    cases hd
  · intro best hbest d hd x hx
    split at hx
    · cases hx
      exact hsub _ hd
    · exact hbest x hx

/-- Directives none of which shows a level make a filter that shows nothing. -/
theorem silent_of_limits (h : ∀ d ∈ f, d.limit = none) : f.Silent := by
  intro e
  unfold shows
  split
  · next scope limit hdecisive => exact nomatch h _ (mem_of_decisive? hdecisive)
  · rfl

theorem ofString?_off : ofString? "off" = some [⟨.events "" none, none⟩] := by decide +kernel

end LogFilter

/-! ## The end of a call -/

/-- What a call leaves behind whose paths got these reports. -/
def closing (filter : LogFilter) (log : Log) (reports : List Report) (store : FileStore) : Finished :=
  let failures := (reports.filter Report.isFailure).length
  { code := if failures = 0 then 0 else 1
    stdout := String.join (reports.filterMap stdoutEntry)
    stderr :=
      shownLines filter log ++ String.join (reports.filterMap stderrEntry) ++
        shownLines filter (failureNotice failures reports.length)
    store := store }

/-- The batch of a call. -/
def Options.batch (o : Options) (settings : Settings) : Batch :=
  ⟨settings, if o.stdout then .collect else .files⟩

theorem convertAll_eq (o : Options) (filter : LogFilter) (settings : Settings) (store : FileStore) :
    convertAll o filter settings store =
      closing filter ((o.batch settings).run false store o.paths).log
        ((o.batch settings).run false store o.paths).value.1
        ((o.batch settings).run false store o.paths).value.2 := rfl

/-- The ends that a call can come to under its settings, with its paths in the hands of any number of workers
    whose steps come in any order, some of which the system may refuse. Nothing is assumed of the events that
    the workers log on the way: `log` may be any. -/
inductive CanEnd (env : List (String × String)) (o : Options) (store : FileStore) (settings : Settings)
    (log : Log) : List Report → Finished → Prop
  | finished {workers : Nat} {fresh : Place → Prop} {struck : Nat → Prop} {pool : Pool}
      (hworkers : 0 < workers)
      (hrun : Pool.Run (o.batch settings) false fresh struck o.paths (Pool.start store workers) pool)
      (hfinished : pool.Finished) :
      CanEnd env o store settings log (pool.reports o.paths.length)
        (closing (o.logFilter env) log (pool.reports o.paths.length) pool.shared.store)

section Call

variable {env : List (String × String)} {o : Options} {store : FileStore} {settings : Settings}
  {arguments : List String} {log : Log} {reports : List Report} {finished : Finished}

/-- A call comes to one of these ends, that of a single worker. -/
theorem canEnd_run (hparsed : Options.ofArguments arguments = .ok o)
    (hsettings : o.settings env store = .ok settings) :
    ∃ log reports, CanEnd env o store settings log reports (run env store arguments) := by
  obtain ⟨pool, hsteps, hfinished, hreports, hstore⟩ :=
    @Pool.run_steps (o.batch settings) false (fun _ => True) (fun _ _ _ => trivial) store o.paths
  have hend : CanEnd env o store settings ((o.batch settings).run false store o.paths).log _ _ :=
    .finished (by decide) hsteps.run hfinished
  rw [hreports, hstore, ← convertAll_eq] at hend
  have hrun : run env store arguments = convertAll o (o.logFilter env) settings store := by
    simp only [run, hparsed, hsettings]
  exact ⟨_, _, hrun ▸ hend⟩

/-- What a call under its settings says of its paths. The log lines that the filter shows share the error
    stream with the lines of the failures; they stand in front of these and behind them, never in between. -/
structure Accounted (o : Options) (filter : LogFilter) (log : Log) (reports : List Report)
    (finished : Finished) : Prop where
  /-- There is one report for each path, in the order of the arguments. -/
  paths : reports.map (·.path) = o.paths
  code : finished.code = 1 ∧ (∃ r ∈ reports, ∃ f, r.outcome = .failed f) ∨
    finished.code = 0 ∧ ∀ r ∈ reports, ∀ f, r.outcome ≠ .failed f
  /-- There is one entry for each report, and the streams hold the entries and, besides them, log lines. -/
  entries : ∃ entries, Ledger reports entries ∧ finished.stdout = textOn .output entries ∧
    finished.stderr = shownLines filter log ++ textOn .error entries ++
      shownLines filter (failureNotice (reports.filter Report.isFailure).length reports.length)

theorem isFailure_iff {r : Report} : r.isFailure = true ↔ ∃ f, r.outcome = .failed f := by
  unfold Report.isFailure
  split <;> simp_all

theorem code_closing (filter : LogFilter) (log : Log) (reports : List Report) (store : FileStore) :
    (closing filter log reports store).code = 1 ∧ (∃ r ∈ reports, ∃ f, r.outcome = .failed f) ∨
      (closing filter log reports store).code = 0 ∧ ∀ r ∈ reports, ∀ f, r.outcome ≠ .failed f := by
  have hnone : (reports.filter Report.isFailure).length = 0 ↔
      ∀ r ∈ reports, ¬ ∃ f, r.outcome = .failed f := by
    simp only [List.length_eq_zero_iff, List.filter_eq_nil_iff, isFailure_iff]
  by_cases h : ∀ r ∈ reports, ¬ ∃ f, r.outcome = .failed f
  · exact .inr ⟨if_pos (hnone.mpr h), fun r hr => not_exists.mp (h r hr)⟩
  · exact .inl ⟨if_neg fun hzero => h (hnone.mp hzero), by simpa using h⟩

theorem CanEnd.accounted (h : CanEnd env o store settings log reports finished) :
    Accounted o (o.logFilter env) log reports finished := by
  cases h with
  | @finished workers fresh struck pool hworkers hrun hfinished =>
      obtain ⟨c, -, hfollows⟩ := Pool.follows_run hrun
      obtain ⟨entries, hledger, hout, herr⟩ :=
        exists_ledger (Pool.told_of_finished hworkers hrun hfinished)
      refine ⟨Pool.map_path_reports_of_finished hfollows hfinished (hrun.workers_ne_nil hworkers), ?_,
        entries, hledger, hout, ?_⟩
      · exact code_closing _ _ _ _
      · rw [← herr]
        rfl

/-! ### Streams without a log -/

theorem shownLines_of_silent {filter : LogFilter} (h : filter.Silent) (log : Log) :
    shownLines filter log = "" := by
  rw [shownLines, List.filter_eq_nil_iff.mpr fun e _ => by rw [h e]; exact Bool.false_ne_true]
  rfl

/-- **Without log lines the streams hold the entries and nothing else**: the error stream is exactly the lines
    of the paths that failed. -/
theorem Accounted.streams_of_silent {filter : LogFilter} (h : Accounted o filter log reports finished)
    (hsilent : filter.Silent) :
    ∃ entries, Ledger reports entries ∧ finished.stdout = textOn .output entries ∧
      finished.stderr = textOn .error entries := by
  obtain ⟨entries, hledger, hout, herr⟩ := h.entries
  refine ⟨entries, hledger, hout, ?_⟩
  rw [herr, shownLines_of_silent hsilent, shownLines_of_silent hsilent, String.empty_append,
    String.append_empty]

theorem silent_of_off (h : env.lookup "RUST_LOG" = some "off") : (o.logFilter env).Silent := by
  have hfilter : o.logFilter env = [⟨.events "" none, none⟩] := by
    rw [Options.logFilter, h, Option.bind_some, LogFilter.ofString?_off, Option.getD_some]
  rw [hfilter]
  exact LogFilter.silent_of_limits fun d hd => by rw [List.mem_singleton.mp hd]

/-- A call whose environment turns the log off leaves the entries of its paths on the streams, and no more. -/
theorem streams_of_off (hparsed : Options.ofArguments arguments = .ok o)
    (hsettings : o.settings env store = .ok settings) (hoff : env.lookup "RUST_LOG" = some "off") :
    ∃ entries, entries.map (·.1.path) = o.paths ∧ (∀ e ∈ entries, Entry e.1 e.2.1 e.2.2) ∧
      (run env store arguments).stdout = textOn .output entries ∧
      (run env store arguments).stderr = textOn .error entries := by
  obtain ⟨log, reports, hend⟩ := canEnd_run hparsed hsettings
  obtain ⟨entries, hledger, hout, herr⟩ := hend.accounted.streams_of_silent (silent_of_off hoff)
  refine ⟨entries, ?_, hledger.entries, hout, herr⟩
  rw [← hend.accounted.paths, ← hledger.reports, List.map_map]
  rfl

/-- **A call accounts for every path.** Take any arguments that can be read, any environment and any files.
    If the settings cannot be loaded or are not valid, the exit code is 2 and no file is touched. Otherwise,
    for any number of workers and any order of their steps, each path has one entry, in the order of the
    arguments: on the error stream if it failed, told in one line, and on standard output else. The exit
    code is 1 if some path failed, and 0 if none did. The lines of the log that the filter shows share the error
    stream: they stand in front of the lines of the failures and behind them, and where the filter shows none,
    the lines of the failures are all that there is (`Accounted.streams_of_silent`). -/
theorem every_path_accounted (hparsed : Options.ofArguments arguments = .ok o)
    (env : List (String × String)) (store : FileStore) :
    (∀ f, o.settings env store = .error f →
      (run env store arguments).code = 2 ∧ (run env store arguments).stdout = "" ∧
      (run env store arguments).store = store) ∧
    ∀ settings, o.settings env store = .ok settings →
      (∃ log reports, CanEnd env o store settings log reports (run env store arguments)) ∧
      ∀ log reports finished, CanEnd env o store settings log reports finished →
        Accounted o (o.logFilter env) log reports finished := by
  refine ⟨fun f hf => ?_, fun settings hsettings => ⟨canEnd_run hparsed hsettings, ?_⟩⟩
  · simp only [run, hparsed, hf, and_self]
  · exact fun log reports finished h => h.accounted

end Call

/-- A call for one path twice, where the file is missing. -/
def twiceMissing : Options :=
  ⟨[⟨"a.txt"⟩, ⟨"a.txt"⟩], none, [], none, none, none, false, false, 0, true⟩

/-- If a variable does not suit its setting the exit code is 2; without it, there is one report for each of
    the two arguments. -/
theorem every_path_accounted_missing :
    Options.ofArguments ["-q", "a.txt", "a.txt"] = .ok twiceMissing ∧
    (run [("SELCONV_WORKERS", "many")] ⟨[], []⟩ ["-q", "a.txt", "a.txt"]).code = 2 ∧
    ∃ log reports, CanEnd [] twiceMissing ⟨[], []⟩ Settings.default log reports
        (run [] ⟨[], []⟩ ["-q", "a.txt", "a.txt"]) ∧
      Accounted twiceMissing (twiceMissing.logFilter []) log reports
        (run [] ⟨[], []⟩ ["-q", "a.txt", "a.txt"]) := by
  have hparsed : Options.ofArguments ["-q", "a.txt", "a.txt"] = .ok twiceMissing := rfl
  have hunsuitable : (twiceMissing.settings [("SELCONV_WORKERS", "many")] ⟨[], []⟩).toBool = false := by
    decide +kernel
  have hdefault : twiceMissing.settings [] ⟨[], []⟩ = .ok Settings.default := rfl
  obtain ⟨f, hfault⟩ : ∃ f, twiceMissing.settings [("SELCONV_WORKERS", "many")] ⟨[], []⟩ = .error f := by
    cases h : twiceMissing.settings [("SELCONV_WORKERS", "many")] ⟨[], []⟩ with
    | error f => exact ⟨f, rfl⟩
    | ok s => exact absurd hunsuitable (by rw [h]; exact Bool.noConfusion)
  refine ⟨hparsed, ((every_path_accounted hparsed _ _).1 f hfault).1, ?_⟩
  obtain ⟨⟨log, reports, hend⟩, haccounted⟩ := (every_path_accounted hparsed _ _).2 _ hdefault
  exact ⟨log, reports, hend, haccounted _ _ _ hend⟩

end CommandLine

end FacetQuery
