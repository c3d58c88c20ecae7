import FacetQuery.Fault
import FacetQuery.FileStore.Staging
import FacetQuery.Log

/-!
# `FacetQuery.Output` — reading inputs and writing outputs

An output is made under a staging name beside its place, filled there and moved into its place, so that
nobody ever sees a part of it. `Output.write` does all three at once. `Output.Step` is the same as single
steps, each of which may find the files changed by others, and may also fail for a reason of the system;
`write_steps` says that writing at once is one way through the steps.

## Contents
- `readInput`, and `Output` with `write`.
- `Writing`, the stages of writing, with `Output.Step` and `Output.Steps`.
- `Writers`, several outputs that are being written at a time.
-/

namespace FacetQuery

/-- The text of an input. -/
def readInput (store : FileStore) (p : Path) : Except Fault String :=
  (store.read p).mapError (.io p)

/-- What is to be written where, and whether it may take the place of a file. -/
structure Output where
  path : Path
  contents : String
  overwrite : Bool
  deriving DecidableEq, Inhabited

namespace Output

/-! ## Writing at once -/

/-- What a move of the staging file means for the output. Without `overwrite` an output that exists is
    a cause of its own. -/
def verdict (o : Output) : Except FileFault Unit → Except Fault Unit
  | .ok _ => .ok ()
  | .error f =>
      if o.overwrite = false ∧ f = .exists then .error (.outputExists o.path)
      else .error (.io o.path f)

/-- The event that reports an output in its place. -/
def writtenNotice (o : Output) : LogEvent :=
  ⟨.debug, .persist, "wrote output",
    [("path", o.path.text), ("bytes", toString o.contents.utf8ByteSize)]⟩

/-- Writes an output: stages it and moves it into its place. -/
def write (o : Output) (store : FileStore) : Logged (Except Fault Unit × FileStore) :=
  match store.stage o.path o.contents with
  | .error f => pure (.error (.staging o.path f), store)
  | .ok (staging, staged) =>
      let (moved, after) := staged.moveInto staging o.path o.overwrite
      ⟨(o.verdict moved, after), if moved.toBool then [o.writtenNotice] else []⟩

end Output

/-! ## Writing step by step -/

/-- How far the writing of an output has come. -/
inductive Writing where
  /-- Nothing is done yet. -/
  | ready
  /-- The staging file is there and empty. -/
  | created (staging : Place)
  /-- The staging file holds the contents. -/
  | filled (staging : Place)
  /-- It is over, well or not. -/
  | ended (result : Except Fault Unit)

namespace Output

/-- One step in the writing of an output, as a change of the files and of the stage. The staging file may
    get any place in the directory of the output for which `fresh` holds and where nothing stands. To
    make it, to fill it and to move it may fail for any reason; a staging file that could not be filled or
    moved is gone. -/
inductive Step (fresh : Place → Prop) (o : Output) : FileStore × Writing → FileStore × Writing → Prop
  | create {s dir name} (hdir : s.directoryOf o.path = .ok dir) (hfresh : fresh (dir ++ [name]))
      (hfree : s.get? (dir ++ [name]) = none) :
      Step fresh o (s, .ready) (s.insert (dir ++ [name]) (.file .empty), .created (dir ++ [name]))
  | createFails {s} (f : FileFault) :
      Step fresh o (s, .ready) (s, .ended (.error (.staging o.path f)))
  | fill {s staging} :
      Step fresh o (s, .created staging)
        (s.insert staging (.file o.contents.toUTF8), .filled staging)
  | fillFails {s staging} (f : FileFault) :
      Step fresh o (s, .created staging) (s.erase staging, .ended (.error (.io o.path f)))
  | move {s staging} :
      Step fresh o (s, .filled staging)
        ((s.moveInto staging o.path o.overwrite).2,
          .ended (o.verdict (s.moveInto staging o.path o.overwrite).1))
  | moveFails {s staging} (f : FileFault) :
      Step fresh o (s, .filled staging) (s.erase staging, .ended (o.verdict (.error f)))

/-- Any number of steps, of one writer and no other. -/
inductive Steps (fresh : Place → Prop) (o : Output) :
    FileStore × Writing → FileStore × Writing → Prop
  | refl {c} : Steps fresh o c c
  | tail {c d e} : Steps fresh o c d → Step fresh o d e → Steps fresh o c e

/-- Writing at once goes through the steps and comes to their end. -/
theorem write_steps {fresh : Place → Prop} (o : Output) (s : FileStore)
    (hfresh : ∀ dir, fresh (dir ++ [s.freeName dir o.path])) :
    Steps fresh o (s, .ready) ((o.write s).value.2, .ended (o.write s).value.1) := by
  unfold write FileStore.stage
  cases hd : s.directoryOf o.path with
  | error f => exact .tail .refl (.createFails f)
  | ok dir =>
      refine .tail (.tail (.tail .refl
        (.create hd (hfresh dir) (s.freeName_free dir o.path).1)) .fill) ?_
      rw [FileStore.insert_insert]
      exact .move

end Output

/-- Outputs that are being written at a time, over files that they share. -/
structure Writers where
  store : FileStore
  calls : List (Output × Writing)

namespace Writers

/-- Some output gets one step further. -/
inductive Step (fresh : Place → Prop) : Writers → Writers → Prop
  | step {s t before o w x after} (h : Output.Step fresh o (s, w) (t, x)) :
      Step fresh ⟨s, before ++ (o, w) :: after⟩ ⟨t, before ++ (o, x) :: after⟩

/-- Any number of steps, in any order of the outputs. -/
inductive Steps (fresh : Place → Prop) : Writers → Writers → Prop
  | refl {c} : Steps fresh c c
  | tail {c d e} : Steps fresh c d → Step fresh d e → Steps fresh c e

/-- Outputs of which nothing is written yet. -/
def start (store : FileStore) (outputs : List Output) : Writers :=
  ⟨store, outputs.map fun o => (o, .ready)⟩

end Writers

end FacetQuery
