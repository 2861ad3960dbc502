import Blueprint.Metadata
import Blueprint.SourceFile

/-!
# Variables and outputs of source files

The interface that the files of a blueprint declare. Every `variable` and every `output` block needs
a name that is not blank, and no name may be declared twice. Within a file variables are checked
before outputs; the first fault is the error.
-/

namespace Blueprint

/-- What is wrong with the name of a block. -/
inductive NameFault where
  | missing (kind : String)
  | empty (kind : String)
  | duplicate (kind : String) (name : String)
deriving DecidableEq, Repr

namespace NameFault

def message : NameFault → String
  | missing kind => kind ++ " block has no name"
  | empty kind => kind ++ " block has an empty name"
  | duplicate kind name => "duplicate " ++ kind ++ " \"" ++ name ++ "\""

def error (path : String) (fault : NameFault) : Error :=
  .validation path fault.message

end NameFault

namespace Interface

/-- The name of a block that has to have one: its first label, which is not blank. -/
def blockName (block : Hcl.Block) : Except NameFault String :=
  match block.name? with
  | none => .error (.missing block.kind)
  | some name =>
    if name.toList.all Text.isBlank then .error (.empty block.kind) else .ok name

/-- Blocks with their names, none of which is among the names seen before. -/
def named (path : String) (seen : List String) :
    List Hcl.Block → Except Error (List (String × Hcl.Block))
  | [] => .ok []
  | block :: rest =>
    match blockName block with
    | .error fault => .error (fault.error path)
    | .ok name =>
      if name ∈ seen then .error ((NameFault.duplicate block.kind name).error path)
      else (named path (name :: seen) rest).map ((name, block) :: ·)

/-- The type of a variable as it is written, without quotation marks. -/
def typeText (type : Hcl.Expr) : String :=
  type.literalString?.getD type.toText

/-- The variable that a block declares. A default of null makes it optional and says no more. -/
def variableOf (name : String) (block : Hcl.Block) : Variable :=
  let default? := block.body.attribute? "default"
  { name
    description := (block.body.string? "description").getD ""
    varType := ((block.body.attribute? "type").map typeText).getD ""
    required := default?.isNone
    defaultValue := (default?.map Hcl.Expr.toValue).filter fun value => !value.isNull }

def outputOf (name : String) (block : Hcl.Block) : Output :=
  { name, description := (block.body.string? "description").getD "" }

/-- The interface that files declare after names that were seen before, without places. -/
def declared (seenInputs seenOutputs : List String) :
    List SourceFile → Except Error Interface
  | [] => .ok {}
  | file :: rest => do
    -- All variables of a file come before its outputs, wherever they stand in it.
    let inputs ← named file.path seenInputs (file.body.blocksOf "variable")
    let outputs ← named file.path seenOutputs (file.body.blocksOf "output")
    let later ← declared (inputs.map (·.1) ++ seenInputs) (outputs.map (·.1) ++ seenOutputs) rest
    return {
      inputs := inputs.map (fun (name, block) => variableOf name block) ++ later.inputs
      outputs := outputs.map (fun (name, block) => outputOf name block) ++ later.outputs }

/-- Gives the names of blocks the places behind those that are taken; each name takes one. -/
def placed (path : String) (orders : SortedMap Nat) :
    List Hcl.Block → Except Error (SortedMap Nat)
  | [] => .ok orders
  | block :: rest =>
    match blockName block with
    | .error fault => .error (fault.error path)
    | .ok name =>
      if orders.contains name then .error ((NameFault.duplicate block.kind name).error path)
      else placed path (orders.insert name orders.size) rest

/-- The place of every variable among the variables of all files. -/
def variableOrders (files : List SourceFile) : Except Error (SortedMap Nat) :=
  files.foldlM (fun orders file => placed file.path orders (file.body.blocksOf "variable")) .empty

def ofFiles (files : List SourceFile) : Except Error Interface := do
  let interface ← declared [] [] files
  -- This goes through the variables once more, and finds no fault that was not found before.
  let orders ← variableOrders files
  return { interface with
    inputs := interface.inputs.map fun v => { v with order := orders.get? v.name } }

end Interface
end Blueprint
