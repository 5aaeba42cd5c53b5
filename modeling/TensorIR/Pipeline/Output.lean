import TensorIR.Body.Dot
import TensorIR.Body.Snapshot
import TensorIR.Pipeline.Compilation

/-!
# What a compilation is wanted for

A compilation is run for one of five texts: the body as text, as JSON, as a drawing or as a
fingerprint, or the model before lowering. Which passes are needed follows from that, and from
whether the body is to be checked.
-/

set_option autoImplicit false

namespace TensorIR

/-- The texts that a compilation can give. -/
inductive Emit where
  | lir
  | json
  | dot
  | fingerprint
  | model
deriving DecidableEq, Repr

namespace Emit

def all : List Emit := [.lir, .json, .dot, .fingerprint, .model]

def name : Emit → String
  | .lir => "lir"
  | .json => "json"
  | .dot => "dot"
  | .fingerprint => "fingerprint"
  | .model => "model"

/-- The text of a name. -/
def ofName? (name : String) : Option Emit := all.find? (·.name = name)

/-- The last pass that a text needs. -/
def terminal (e : Emit) (validate : Bool) : Pass :=
  match e with
  | .model => .buildModel
  | _ => if validate then .validate else .inferShapes

end Emit

/-- A text was asked for that nothing was made for. -/
structure MissingArtifact where
  artifact : Artifact
deriving DecidableEq, Repr

def Artifact.description : Artifact → String
  | .model => "model"
  | .body => "linear IR"
  | .resultShapes => "result shapes"

def MissingArtifact.message (e : MissingArtifact) : String :=
  s!"{e.artifact.description} was not produced"

/-- A text of what a compilation has made so far. -/
def Compilation.output (c : Compilation) (e : Emit) : Except MissingArtifact String :=
  match e, c.model, c.body with
  | .model, some model, _ => .ok model.render
  | .model, none, _ => .error ⟨.model⟩
  | _, _, none => .error ⟨.body⟩
  | .lir, _, some body => .ok body.render
  | .json, _, some body => .ok (body.prettyJson ++ "\n")
  | .dot, _, some body => .ok body.dot
  | .fingerprint, _, some body => .ok (body.fingerprint ++ "\n")

end TensorIR
