import FeatureLines.Serializer.Plan

/-!
# Reports

The layout of a plan as a tree: a branch for every namespace, and on it a branch for every feature.
-/

namespace FeatureLines

/-- The start of a branch; the last one bends. -/
def branch (isLast : Bool) : String := if isLast then "└── " else "├── "

/-- Joins the texts of items, each told whether it is the last. -/
def joinBranches {α : Type} (text : Bool → α → String) : List α → String
  | [] => ""
  | [item] => text true item
  | item :: rest => text false item ++ joinBranches text rest

namespace Step

/-- The branch of a feature. -/
def tree (s : Step) (stem : String) (isLast : Bool) : String :=
  let d := s.descriptor
  stem ++ branch isLast ++ d.name ++ " <- " ++ d.path ++ (if d.isNullable then "?" else "") ++ ": " ++ d.type.name ++
    " | " ++ s.resolution.name ++ " via " ++ s.handle.name ++ "\n"

end Step

namespace Block

/-- The branch of a namespace with the branches of its features. -/
def tree (b : Block) (isLast : Bool) : String :=
  branch isLast ++ b.runtime.header ++ (if b.dense then " [dense]" else "") ++ "\n" ++
    joinBranches (fun last step => step.tree (if isLast then "    " else "│   ") last) b.steps

end Block

namespace Plan

/-- The layout of a plan as text. -/
def report (p : Plan) : String :=
  "=== FEATWIRE SCHEMA REPORT ===\n" ++ "Example:  " ++ p.line.typeName ++ "\n" ++
    ((p.line.label.map fun label => "Label:    " ++ label.path ++ "\n").getD "") ++
    ((p.actions.map fun actions =>
      "Actions:  " ++ actions.member.path ++ " (" ++ actions.candidate.typeName ++ ")\n").getD "") ++
    "\n[NAMESPACES]\n" ++ joinBranches (fun last block => block.tree last) p.line.blocks

end Plan

end FeatureLines
