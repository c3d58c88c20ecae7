import FacetQuery.Proofs.Conversion.Ends
import FacetQuery.Proofs.Conversion.Lifecycle

/-!
# `FacetQuery.Proofs.Conversion.Reuse` — a conversion that is used for one text after another

A conversion need not be one that calls lead to. Its public parts may be set from outside (`Move.overwrite`), so that
it holds the events of one text and the query of another, and counts as a success all the same; no memory describes
such a conversion. The next text ends that. Nothing of a conversion but its path is looked at when a text is parsed,
and every other part of it is set anew, the stage included (`call_of_text`). So a conversion that parses a text goes
on as one that has done nothing before, and as the memory of a fresh conversion says.

The path is what no call and no setting of the other parts ever changes (`path_moved`).

Main statement: `Conversion.starts_afresh`.
-/

namespace FacetQuery

/-- What is done to a conversion: a call, or its public parts are set from outside. -/
inductive Move where
  | call (k : Call)
  | overwrite (success : Bool) (events : List Event) (query : Query)

namespace Conversion

/-- The answer to a move, if it is a call, and the conversion after it. -/
def move (c : Conversion) : Move → Option Answer × Conversion
  | .call k => (c.call k).map some id
  | .overwrite success events query =>
      (none, { c with success := success, events := events, query := query })

/-- The conversion after some moves. -/
def moved (c : Conversion) (moves : List Move) : Conversion :=
  moves.foldl (fun c m => (c.move m).2) c

/-- What anybody can see of some moves: each answer, and the public parts after the move. -/
def history (c : Conversion) : List Move → List (Option Answer × Bool × List Event × Query)
  | [] => []
  | m :: ms =>
      ((c.move m).1, (c.move m).2.success, (c.move m).2.events, (c.move m).2.query) ::
        (c.move m).2.history ms

/-! ## The path stays -/

theorem path_parse (c : Conversion) (text : String) : (c.parse text).value.2.path = c.path := by
  unfold parse
  split
  · rfl
  · rfl

theorem path_translate (c : Conversion) (x : Exclusions) : (c.translate x).value.2.path = c.path := by
  unfold translate
  split
  · simp only
    split
    · rfl
    · rfl
  · rfl

theorem path_postprocess (c : Conversion) : c.postprocess.value.2.path = c.path := by
  unfold postprocess
  split
  · split
    · rfl
    · rfl
  · rfl

theorem path_process (c : Conversion) (text : String) (x : Exclusions) (format : Format) :
    (c.process text x format).value.2.path = c.path := by
  cases hevents : Selection.events text.toList with
  | error m => rw [process_of_refused hevents]
  | ok es =>
      obtain ⟨ss, hsel, -, -⟩ := exists_statements_of_events hevents
      rw [process_of_selectionText hsel]

/-- No move changes the path. -/
theorem path_move (c : Conversion) (m : Move) : (c.move m).2.path = c.path := by
  cases m with
  | overwrite success events query => rfl
  | call k =>
      cases k with
      | parse text => exact c.path_parse text
      | translate x => exact c.path_translate x
      | postprocess => exact c.path_postprocess
      | render format => rfl
      | process text x format => exact c.path_process text x format

theorem path_moved (c : Conversion) (moves : List Move) : (c.moved moves).path = c.path := by
  induction moves generalizing c with
  | nil => rfl
  | cons m ms ih => exact (ih (c.move m).2).trans (c.path_move m)

/-! ## A text is parsed from nothing -/

/-- Of what a conversion holds, only its path has a part in parsing. -/
theorem parse_eq_start (c : Conversion) (text : String) : c.parse text = (start c.path).parse text := by
  unfold parse
  cases Selection.statements text.toList with
  | ok ss => rfl
  | error m => rfl

/-- So it is with all that starts with parsing. -/
theorem process_eq_start (c : Conversion) (text : String) (x : Exclusions) (format : Format) :
    c.process text x format = (start c.path).process text x format := by
  unfold process
  rw [parse_eq_start]

theorem call_of_text (c : Conversion) {k : Call} (h : k.text?.isSome = true) :
    c.call k = (start c.path).call k := by
  cases k with
  | parse text => rw [call, call, parse_eq_start]
  | process text x format => rw [call, call, process_eq_start]
  | translate x => exact absurd h Bool.false_ne_true
  | postprocess => exact absurd h Bool.false_ne_true
  | render format => exact absurd h Bool.false_ne_true

theorem history_of_text (c : Conversion) {k : Call} (h : k.text?.isSome = true) (moves : List Move) :
    c.history (.call k :: moves) = (start c.path).history (.call k :: moves) := by
  simp only [history, move, c.call_of_text h]

theorem trace_of_text (c : Conversion) {k : Call} (h : k.text?.isSome = true) (calls : List Call) :
    c.trace (k :: calls) = (start c.path).trace (k :: calls) := by
  simp only [trace, c.call_of_text h]

/-- **A conversion that is used again has no memory.** Whatever state it is in, it parses a text, and takes one through
    all steps, as a fresh conversion of its path does: with the same result, the same report, and the same left in all
    its parts. Take a call that parses a text, after any calls and with the public parts set to anything in between;
    it and all moves that follow show what they show on a fresh conversion. Calls that follow show what the memory of
    a fresh conversion says. -/
theorem starts_afresh (c : Conversion) :
    (∀ text, c.parse text = (start c.path).parse text) ∧
    (∀ text x format, c.process text x format = (start c.path).process text x format) ∧
    ∀ k : Call, k.text?.isSome = true →
      (∀ before moves, (c.moved before).history (.call k :: moves) = (start c.path).history (.call k :: moves)) ∧
      ∀ before calls, (c.moved before).trace (k :: calls) = Memory.blank.trace c.path (k :: calls) := by
  refine ⟨c.parse_eq_start, c.process_eq_start, fun k hk => ⟨fun before moves => ?_, fun before calls => ?_⟩⟩
  · rw [history_of_text _ hk, path_moved]
  · rw [trace_of_text _ hk, path_moved]
    exact trace_conversion c.path .blank (k :: calls)

end Conversion

end FacetQuery
