import ParamSweep.Config.Source
import ParamSweep.Config.Document

/-!
Resolving configuration along a chain of experiments.

An experiment builds on at most one other, so it has a chain of bases. A document of the experiment
is the document of the last base with those of the others laid over it, the experiment's own one at
the end. What has been resolved once is kept and not looked up again; what failed is not kept.
-/

namespace ParamSweep

/-- The bases declared beside the source, and what has been resolved. -/
structure Resolver where
  declared : Entries String := []
  chains : List (String × List String) := []
  documents : List ((String × String) × Option Document) := []
  deriving Inhabited

/-- An operation on a resolver. -/
abbrev Resolving (α : Type) := ExceptT Error (StateM Resolver) α

namespace Resolver

/-- The operation with a given answer. -/
def ofExcept {α : Type} (r : Except Error α) : Resolving α := ExceptT.mk (pure r)

/-- Declares the base of an experiment, over the one that the source names. -/
def declareBase (experiment base : String) (r : Resolver) : Resolver :=
  { r with declared := r.declared.insert experiment base }

/-- Declares the base of an experiment if there is one to declare. -/
def declareBase? (experiment : String) (base : Option String) (r : Resolver) : Resolver :=
  match base with
  | some base => r.declareBase experiment base
  | none => r

/-- The experiment that one builds on. -/
def nextBase (source : ConfigSource) (declared : Entries String) (experiment : String) :
    Except Error (Option String) :=
  match declared.find? experiment with
  | some base => .ok (some base)
  | none => source.base? experiment

/-- The chain that goes on from `current`, the last experiment of `chain`. -/
def chainFrom (source : ConfigSource) (declared : Entries String) :
    Nat → List String → String → Except Error (List String)
  | 0, chain, _ => .error (.circularInheritance chain)
  | fuel + 1, chain, current => do
    match ← nextBase source declared current with
    | none => .ok chain
    | some base =>
      if chain.contains base then .error (.circularInheritance (chain ++ [base]))
      else if !source.contains base then
        .error (.configuration (.baseWithoutDirectory current base))
      else chainFrom source declared fuel (chain ++ [base]) base

/-- The chain of an experiment, the experiment itself first. Every link but the last one leads to
another base, so there are no more links than bases. -/
def chainOf (source : ConfigSource) (declared : Entries String) (experiment : String) :
    Except Error (List String) :=
  if source.contains experiment then
    chainFrom source declared (source.bound + declared.length + 2) [experiment] experiment
  else .error (.configuration (.noConfigDirectory experiment))

/-- The layer that an experiment has of a file. -/
def layerOf (source : ConfigSource) (file experiment : String) :
    Except Error (Option Document) := do
  match ← source.load experiment file with
  | none => .ok none
  | some v => ((Document.ofValue file v).mapError Error.configuration).map some

/-- The document of a file in the experiments of a chain, the last of which is laid down first. -/
def layered (source : ConfigSource) (file : String) :
    List String → Except Error (Option Document)
  | [] => .ok none
  | experiment :: bases => do
    let below ← layered source file bases
    let layer ← layerOf source file experiment
    match below, layer with
    | none, layer => .ok layer
    | below, none => .ok below
    | some below, some layer => (below.overlay layer).map some

/-- The chain of an experiment, most specific first. -/
def chain (source : ConfigSource) (experiment : String) : Resolving (List String) := do
  let r ← get
  match r.chains.lookup experiment with
  | some chain => return chain
  | none =>
    let chain ← ofExcept (chainOf source r.declared experiment)
    modify fun r => { r with chains := (experiment, chain) :: r.chains }
    return chain

/-- The last experiment of a chain. -/
def rootOf (source : ConfigSource) (experiment : String) : Resolving String := do
  return ((← chain source experiment).getLast?).getD experiment

/-- The document of a file, or none if no experiment of the chain has it. -/
def tryResolve (source : ConfigSource) (experiment file : String) :
    Resolving (Option Document) := do
  let r ← get
  match r.documents.lookup (experiment, file) with
  | some doc => return doc
  | none =>
    let chain ← chain source experiment
    let doc ← ofExcept (layered source file chain)
    modify fun r => { r with documents := ((experiment, file), doc) :: r.documents }
    return doc

/-- The document of a file. -/
def resolve (source : ConfigSource) (experiment file : String) : Resolving Document := do
  match ← tryResolve source experiment file with
  | some doc => return doc
  | none =>
    let chain ← chain source experiment
    throw (.configuration (.documentNotFound file chain))

/-- The names of the files of a list of experiments, ascending and each once. -/
def fileNamesOf (source : ConfigSource) : List String → Except Error (Entries Unit)
  | [] => .ok []
  | experiment :: rest => do
    let names ← source.fileNames experiment
    let others ← fileNamesOf source rest
    .ok (names.foldl (fun t name => t.insert name ()) others)

/-- The documents of a list of files. -/
def resolveFiles (source : ConfigSource) (experiment : String) :
    List String → Resolving (Entries Document)
  | [] => return []
  | file :: rest => do
    let doc ← resolve source experiment file
    let docs ← resolveFiles source experiment rest
    return (file, doc) :: docs

/-- The documents of all files that an experiment of the chain has. -/
def resolveAll (source : ConfigSource) (experiment : String) :
    Resolving (Entries Document) := do
  let chain ← chain source experiment
  let names ← ofExcept (fileNamesOf source chain)
  resolveFiles source experiment names.keys

end Resolver

end ParamSweep
