import TinyScript.Scope.Frame

/-!
# Environments

An environment is a stack of frames that is never empty: the current frame, and the
frames around it, the nearest first. Names are looked up and assigned in the nearest
frame that binds them, and declared in the current frame.
-/

namespace TinyScript

/-- A stack of frames with a frame at the bottom that always stays. -/
structure Environment where
  current : Frame
  outer : List Frame

namespace Environment

/-- The environment at the start: one frame that binds no name. -/
def new : Environment := ⟨.empty, []⟩

/-- All frames, the nearest first. -/
def frames (env : Environment) : List Frame :=
  env.current :: env.outer

/-- Number of frames. -/
def depth (env : Environment) : Nat :=
  env.frames.length

/-- Opens a frame that binds no name. -/
def push (env : Environment) : Environment :=
  ⟨.empty, env.frames⟩

/-- Closes the current frame, unless it is the one at the bottom. -/
def pop (env : Environment) : Environment :=
  match env.outer with
  | [] => env
  | f :: rest => ⟨f, rest⟩

/-- Declares a name in the current frame. -/
def define (env : Environment) (name : String) (b : Binding) : Environment :=
  { env with current := env.current.set name b }

/-- The binding of a name in the nearest frame that has one. -/
def get? (env : Environment) (name : String) : Option Binding :=
  env.frames.findSome? (·.get? name)

/-- Gives a name a value in the nearest of the frames that binds it. -/
def assignIn (name : String) (v : Value) : List Frame → Option (List Frame)
  | [] => none
  | f :: rest =>
    if f.binds name then some (f.set name (.initialized v) :: rest)
    else (assignIn name v rest).map (f :: ·)

/-- Gives a name a value in the nearest frame that binds it; no frame may bind it. -/
def assign? (env : Environment) (name : String) (v : Value) : Option Environment :=
  if env.current.binds name then some (env.define name (.initialized v))
  else (assignIn name v env.outer).map fun outer => { env with outer }

/-- Leaving a frame undoes entering it. -/
@[simp]
theorem pop_push (env : Environment) : env.push.pop = env :=
  rfl

@[simp]
theorem depth_push (env : Environment) : env.push.depth = env.depth + 1 :=
  rfl

end Environment

end TinyScript
