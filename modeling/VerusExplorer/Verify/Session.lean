import VerusExplorer.Lib.Traced
import VerusExplorer.Dump.Emit

/-!
# A verification session

What `verus.rs` works with while it verifies a module.  AIR, the solver, the op generator and the
rustc reporter are code of other crates.  They are a `World`: transitions of a state `σ` that is
known to nobody here, each with its answer and, for a call on the AIR context, the text it writes
to the four logs.  Every sequence of answers is the behaviour of some world.

* `Session` is the world's state, the log buffers, the bodies of `VerifyOutput` and the local
  variables that outlive an early exit.
* `Call` is what an observer sees: the calls made of the other crates and of the page.
* `Accounted` — nothing AIR writes gets lost on the way to the bodies: it is in the body or still
  in the buffer (`keeps_accounts_*`, one lemma for each primitive).
-/

namespace VerusExplorer

/-! ## Data of the other crates -/

/-- A message of VIR or AIR.  It is passed on and never looked into. -/
abbrev Message := Str

/-- An error of VIR. -/
abbrev VirErr := Str

/-- The path of an assertion, `Vec<u64>`. -/
abbrev AssertId := List ℕ

/-- The answer to a command.  Of the model only its presence is ever read. -/
inductive ValidityResult where
  | valid
  | invalid (model : Bool) (error : Option Message) (assertId : Option AssertId)
  | canceled
  | typeError (e : Message)
  | unexpectedOutput (s : Str)
  deriving DecidableEq, Repr

def ValidityResult.isValid : ValidityResult → Bool
  | valid => true
  | _ => false

/-- `CommandX`; the declarations and queries themselves are AIR's business. -/
inductive Command where
  | push
  | pop
  | setOption (key value : Str)
  | global (decl : Str)
  | checkValid (query : Str)
  deriving DecidableEq, Repr

inductive ProverChoice where
  | defaultProver
  | nonlinear
  | bitVector
  deriving DecidableEq, Repr

inductive Style where
  | normal
  | recommendsFollowupFromError
  | recommendsChecked
  | expanded
  | checkApiSafety
  deriving DecidableEq, Repr

inductive QueryOp where
  | specTermination
  | body (style : Style)
  deriving DecidableEq, Repr

inductive MessageLevel where
  | error
  | warning
  | note
  deriving DecidableEq, Repr

structure CommandsWithContext where
  hintUponFailure : Option Message
  proverChoice : ProverChoice
  commands : List Command
  deriving DecidableEq, Repr

inductive OpKind where
  | context (commands : List Command)
  | query (commandsWithContextList : List CommandsWithContext) (queryOp : QueryOp)
  deriving DecidableEq, Repr

/-- What is read of the function an op belongs to: the crate of its path, its friendly name and
its span. -/
structure OpFunction where
  krate : Option Str
  friendlyName : Str
  span : Str
  deriving DecidableEq, Repr

structure Op where
  function : Option OpFunction
  kind : OpKind
  airComment : Str
  deriving DecidableEq, Repr

inductive ExpandErrorsResult where
  | pass
  | fail
  | timeout
  deriving DecidableEq, Repr

/-- What is read of a module's SST: its functions, of an unknown type `F`. -/
structure KrateSst (F : Type) where
  functions : List F

/-- The four log destinations of an AIR context. -/
inductive Log where
  | airInitial
  | airMiddle
  | airFinal
  | smt
  deriving DecidableEq, Repr

/-- A text for each log. -/
abbrev LogText := Log → Str

/-- The other crates. -/
structure World (σ F : Type) where
  setZ3Param : Str → Str → σ → LogText × σ
  setRlimit : ℕ → σ → LogText × σ
  command : Command → σ → ValidityResult × LogText × σ
  checkValidAgain : Bool → σ → ValidityResult × LogText × σ
  finishQuery : σ → LogText × σ
  openSection : Char → Str → σ → LogText × σ
  sectionClose : σ → LogText × σ
  prelude : List Command
  buildBucketPreamble : KrateSst F → σ → List (List Command) × σ
  funcNameToAir : F → Except VirErr (List Command)
  opgenNew : KrateSst F → σ → σ
  opgenNext : σ → Except VirErr Bool × σ
  expandErrorsNext : σ → Option (Except Message Op) × σ
  functionOpgenNext : σ → Option Op × σ
  retryWithRecommends : Op → Bool → σ → Except VirErr Unit × σ
  reportExpandErrorResult : ExpandErrorsResult → σ → σ

/-! ## Buffers -/

/-- A `SharedBuf`: the bytes written and not yet drained. -/
abbrev SharedBuf := List UInt8

abbrev LogBufs := Log → SharedBuf

/-- The bytes of a text. -/
def utf8 (s : Str) : List UInt8 := s.flatMap String.utf8EncodeChar

/-- `String::from_utf8(bytes).unwrap_or_default()`. -/
def fromUtf8OrDefault (bytes : List UInt8) : Str :=
  match bytes.toByteArray.utf8Decode? with
  | some chars => chars.toList
  | none => []

/-- The bodies of `VerifyOutput` that the logs are drained into. -/
abbrev LogBodies := Log → Str

lemma fromUtf8OrDefault_utf8 (s : Str) : fromUtf8OrDefault (utf8 s) = s := by
  have h : (utf8 s).toByteArray = s.utf8Encode := rfl
  rw [fromUtf8OrDefault, h, List.utf8Decode?_utf8Encode]

lemma utf8_append (s t : Str) : utf8 (s ++ t) = utf8 s ++ utf8 t := List.flatMap_append

/-! ## The session -/

/-- A call that can be observed. -/
inductive Call where
  | verifyModule (path : Str)
  | setZ3Param (key value : Str)
  | setRlimit (rlimit : ℕ)
  | command (cmd : Command) (result : ValidityResult)
  | checkValidAgain (onlyCheckEarlier : Bool) (result : ValidityResult)
  | finishQuery
  | openSection (marker : Char) (label : Str)
  | sectionClose
  | handleOp (op : Op)
  | report (msg : Message)
  | reportAs (msg : Message) (level : MessageLevel)
  | verusVerdict (line : Str)
  | retryWithRecommends (op : Op) (fromError : Bool)
  | reportExpandErrorResult (res : ExpandErrorsResult)
  deriving DecidableEq, Repr

/-- How a run can stop: with an error, or because the solver or a generator has been asked more
often than the run was given fuel for. -/
inductive Stop where
  | err (e : VirErr)
  | outOfFuel
  deriving DecidableEq, Repr

/-- The state while a module is verified.  `written` is all that AIR has written since the logs
were attached; the code has no such variable. -/
structure Session (σ : Type) where
  env : σ
  bufs : LogBufs
  output : LogBodies
  written : LogText
  wrapperKrate : Option Str

/-- A program of `verus.rs`. -/
abbrev Prog (σ α : Type) := Traced (Session σ) Call Stop α

variable {σ F α : Type}

/-- AIR writes a text to the logs. -/
def Session.write (s : Session σ) (text : LogText) : Session σ :=
  { s with
    bufs := fun log => s.bufs log ++ utf8 (text log)
    written := fun log => s.written log ++ text log }

/-- Ask AIR: the answer, the text it writes and the calls seen. -/
def askAir (f : σ → α × LogText × σ) (calls : α → List Call) : Prog σ α :=
  Traced.act
    (fun s =>
      let r := f s.env
      (r.1, { s.write r.2.1 with env := r.2.2 }))
    calls

/-- Tell AIR something it does not answer. -/
def tellAir (f : σ → LogText × σ) (c : Call) : Prog σ Unit :=
  askAir (fun s => ((), f s)) fun _ => [c]

/-- Ask a crate that has no access to the logs. -/
def askVir (f : σ → α × σ) (calls : α → List Call) : Prog σ α :=
  Traced.act
    (fun s =>
      let r := f s.env
      (r.1, { s with env := r.2 }))
    calls

/-- `?` on a result of another crate. -/
def orStop (r : Except VirErr α) : Prog σ α := Traced.ofExcept (r.mapError Stop.err)

def drainTo : Prog σ Unit :=
  Traced.modify fun s =>
    { s with
      output := fun log => s.output log ++ fromUtf8OrDefault (s.bufs log)
      bufs := fun _ => [] }

/-! ## Text is in a body or in a buffer -/

/-- What has been written since the logs were attached to a session whose bodies were `base` is in
the bodies, in order, or still in the buffers. -/
def Accounted (base : LogBodies) (s : Session σ) : Prop :=
  ∀ log, ∃ pending : Str,
    s.bufs log = utf8 pending ∧ s.output log ++ pending = base log ++ s.written log

/-- A run that starts accounted for ends so. -/
def accounts (base : LogBodies) : Traced.Rel (Session σ) Call :=
  fun _ s t _ => Accounted base s → Accounted base t

variable {base : LogBodies}

lemma composes_accounts : Traced.Composes (accounts (σ := σ) base) where
  nil _ h := h
  append h₁ h₂ h := h₂ (h₁ h)
  stop h := h

lemma Accounted.write {s : Session σ} (h : Accounted base s) (text : LogText) :
    Accounted base (s.write text) := by
  intro log
  obtain ⟨pending, hbuf, heq⟩ := h log
  refine ⟨pending ++ text log, ?_, ?_⟩
  · rw [utf8_append, ← hbuf]
    rfl
  · show s.output log ++ (pending ++ text log) = base log ++ (s.written log ++ text log)
    rw [← List.append_assoc, heq, List.append_assoc]

lemma keeps_accounts_askAir (f : σ → α × LogText × σ) (calls : α → List Call) :
    Traced.Keeps (accounts base) (askAir f calls) :=
  fun _ h => h.write _

lemma keeps_accounts_askVir (f : σ → α × σ) (calls : α → List Call) :
    Traced.Keeps (accounts base) (askVir f calls) :=
  fun _ h => h

lemma keeps_accounts_emit (c : Call) :
    Traced.Keeps (accounts base) (Traced.emit c : Prog σ Unit) :=
  fun _ h => h

/-- Draining leaves nothing in the buffers. -/
lemma drainTo_accounted {s : Session σ} (h : Accounted base s) :
    (∀ log, (drainTo s).state.output log = base log ++ s.written log)
      ∧ (drainTo s).state.written = s.written := by
  refine ⟨fun log => ?_, rfl⟩
  obtain ⟨pending, hbuf, heq⟩ := h log
  show s.output log ++ fromUtf8OrDefault (s.bufs log) = base log ++ s.written log
  rw [hbuf, fromUtf8OrDefault_utf8, heq]

lemma keeps_accounts_drainTo : Traced.Keeps (accounts base) (drainTo : Prog σ Unit) := by
  intro s h log
  obtain ⟨hout, hwritten⟩ := drainTo_accounted h
  refine ⟨[], rfl, ?_⟩
  rw [hout, hwritten, List.append_nil]

end VerusExplorer
