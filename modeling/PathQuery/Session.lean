/-
Compilation a step at a time.

A session is compilation between two steps: a store, and a stack of
frames of which the innermost is active. Steps are compiled under the
active frame and cannot change it; frames are entered, altered and left
by the functions here alone. Entering copies the active frame, so
leaving gives back the one that was active before, whatever was done to
the copy.
-/
import PathQuery.Compile.Statement

namespace PathQuery

structure Session (κ : Type) where
  schema : Schema
  /-- The active frame. -/
  frame : Frame
  /-- The frames around it, innermost first. -/
  outer : List Frame
  store : Store κ
  deriving Inhabited

namespace Session

variable {κ α : Type}

def start (schema : Schema) (o : CompileOptions) : Session κ :=
  ⟨schema, o.frame, [], .new⟩

/-- How many frames are around the active one. -/
def depth (s : Session κ) : Nat := s.outer.length

def env (s : Session κ) : Env := ⟨s.schema, s.frame⟩

/-- Compile one step. The store grows also if it fails. -/
def step (s : Session κ) (m : CompileM κ α) : Except CompileError α × Session κ :=
  let (result, store) := m.run s.env s.store
  (result, { s with store })

-- ============================================================== frames

/-- Enter a frame in the active scope node. -/
def enter (s : Session κ) : Session κ := { s with outer := s.frame :: s.outer }

/-- Enter a frame in a new scope node below the active one. -/
def enterScope (s : Session κ) : Session κ :=
  { s with
    frame := { s.frame with scope := s.store.scopes.size }
    outer := s.frame :: s.outer
    store := { s.store with scopes := s.store.scopes.attach s.frame.scope } }

/-- Leave the active frame for the one around it; the outermost frame
stays. -/
def leave (s : Session κ) : Session κ :=
  match s.outer with
  | [] => s
  | frame :: outer => { s with frame, outer }

-- ====================================================== active frame

def alter (s : Session κ) (change : Frame → Frame) : Session κ :=
  { s with frame := change s.frame }

def setClause (s : Session κ) (clause : Clause) : Session κ :=
  s.alter fun f => { f with clause := some clause }

def setSubject (s : Session κ) (subject : Option SetId) : Session κ :=
  s.alter fun f => { f with subject }

def setDefaultModule (s : Session κ) (module : String) : Session κ :=
  s.alter fun f => { f with defaultModule := some module }

def addAlias (s : Session κ) (shorthand module : String) : Session κ :=
  s.alter fun f => { f with aliases := f.aliases.insert shorthand module }

-- ================================================================ laws

@[simp] theorem leave_enter (s : Session κ) : s.enter.leave = s := rfl

/-- Leaving a scope node gives back the frame; the node stays. -/
@[simp] theorem frame_leave_enterScope (s : Session κ) : s.enterScope.leave.frame = s.frame :=
  rfl

/-- A step does not touch the frames. -/
@[simp] theorem frame_step (s : Session κ) (m : CompileM κ α) :
    (s.step m).2.frame = s.frame ∧ (s.step m).2.outer = s.outer := ⟨rfl, rfl⟩

end Session

end PathQuery
