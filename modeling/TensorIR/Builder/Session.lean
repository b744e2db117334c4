import TensorIR.Builder.Operator

/-!
# TensorIR.Builder.Session

Sessions: a program under construction and the settings in force. The settings may change between
steps; every step ends in what it created or in an abort, and the session goes on.

* `Step`: everything that can make a program grow.
* `Step.build`: the construction that a step stands for.
* `Session.perform`: one step under the settings in force.
-/

namespace TensorIR

inductive Step where
  | internType (t : TensorType)
  | declare (t : TensorType) (var : StaticVariable) (name : String)
  | declareOf (ref : TypeRef) (var : StaticVariable) (name : String)
  | request (r : Request)
  | operator (op : Operator)
  deriving DecidableEq

/-- The handle of what a step created or, for a type, found. -/
inductive Created where
  | type (ref : TypeRef)
  | value (id : ValueId)
  | instr (id : InstrId)
  deriving DecidableEq

def Step.build (config : Config) : Step → Build Created
  | internType t => .type <$> Build.internType t
  | declare t var name => .value <$> Build.declare t var name
  | declareOf ref var name => .value <$> Build.declareOf ref var name
  | request r => .instr <$> Build.request config r
  | operator op => .instr <$> op.build config

structure Session where
  program : Program := {}
  config : Config := {}
  deriving DecidableEq

namespace Session

def configure (s : Session) (config : Config) : Session := { s with config }

/-- How a step ends, and the session after it. -/
def perform (s : Session) (step : Step) : Except (Abort ProgramError) Created × Session :=
  match (step.build s.config).run s.program with
  | .ok created program => (.ok created, { s with program })
  | .error e program => (.error e, { s with program })

end Session
end TensorIR
