import ShaderFlatten.Tree.Resolve

/-!
# Output plans

Under an output folder a shader that was found below a root keeps its path relative to the first root
that contains it, and any other keeps its file name.  A plan is refused when two different sources would
be written to one file.
-/

namespace ShaderFlatten

/-- The target of each input, in the order in which the inputs first appear. -/
abbrev OutputPlan := List (Path × Path)

/-- Why there is no plan. -/
inductive PlanError where
  | conflict (first second : Place) (target : Path)
  | unresolved (fault : Fault)
  deriving DecidableEq, Repr

/-- The wording of a plan error. -/
def PlanError.message : PlanError → String
  | .conflict first second target =>
    first.text ++ " and " ++ second.text ++ " would both be written to " ++ target.toString
  | .unresolved fault => fault.message

namespace OutputPlan

/-- A place relative to a root that contains it. -/
def relativeTo? (root place : Place) : Option (List String) :=
  if root.isPrefixOf place then some (place.drop root.length) else none

/-- The path of an input below the output folder. -/
def relativePath (roots : List Place) (input : Path) (source : Place) : Path :=
  match roots.findSome? fun root => relativeTo? root source with
  | some names => ⟨.relative, names⟩
  | none => .ofString input.name

/-- The file that an input is written to. -/
def target (folder : Path) (roots : List Place) (input : Path) (source : Place) : Path :=
  folder.join (relativePath roots input source)

/-- A plan with the target of one more input; an input that is there keeps its place. -/
def put (plan : OutputPlan) (input target : Path) : OutputPlan :=
  match plan with
  | [] => [(input, target)]
  | (p, t) :: rest => if p = input then (p, target) :: rest else (p, t) :: put rest input target

/-- The source that claimed a target first. -/
def claimed? (sources : List (Path × Place)) (target : Path) : Option Place :=
  (sources.find? (·.1 = target)).map (·.2)

/-- Plan further inputs after those whose targets and sources are known. -/
def extend (disk : Disk) (folder : Path) (roots : List Place) (plan : OutputPlan)
    (sources : List (Path × Place)) : List Path → Except PlanError OutputPlan
  | [] => .ok plan
  | input :: rest =>
    match disk.resolve? input with
    | .error e => .error (.unresolved e)
    | .ok source =>
      let goal := target folder roots input source
      match claimed? sources goal with
      | some first =>
        if first = source then extend disk folder roots (put plan input goal) sources rest
        else .error (.conflict first source goal)
      | none =>
        extend disk folder roots (put plan input goal) (sources ++ [(goal, source)]) rest

/-- The plan for inputs under an output folder. -/
def make (disk : Disk) (folder : Path) (roots inputs : List Path) : Except PlanError OutputPlan :=
  match roots.mapM disk.resolve? with
  | .error e => .error (.unresolved e)
  | .ok roots => extend disk folder roots [] [] inputs

end OutputPlan

end ShaderFlatten
