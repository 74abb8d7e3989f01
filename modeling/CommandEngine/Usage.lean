import CommandEngine.Tree.Build

/-!
# Usage lines

`CommandTree.allUsage` lists every way through the part of a tree below a node that ends at a handler
or at a redirect.  `CommandTree.smartUsage` has one line for each child of a node: a single
continuation is written out, what may be left out is put in brackets, and alternatives are listed.
-/

namespace CommandEngine
namespace CommandTree

variable {σ : Type}

/-- How a redirect is written. -/
def redirectUsage (t : CommandTree σ) (target : NodeId) : String :=
  if target = rootId then "..." else "-> " ++ (t.node target).usage

/-- Whether a node is shown: unless the list is restricted, every node is. -/
def shown (t : CommandTree σ) (source : σ) (restricted : Bool) (id : NodeId) : Bool :=
  !restricted || (t.node id).canUse source

/-- Two parts of a usage line. -/
def joinUsage (left right : String) : String := left ++ separator.toString ++ right

/-- The lines from a node on, where `line` leads to it. -/
def usageFrom (t : CommandTree σ) (source : σ) (restricted : Bool) (id : NodeId) (line : String) :
    List String :=
  let n := t.node id
  if !t.shown source restricted id then []
  else
    let own := if n.handler.isSome then [line] else []
    match n.target? with
    | some target =>
      own ++ [joinUsage (if line = "" then n.usage else line) (t.redirectUsage target)]
    | none =>
      own ++ (t.later id).flatMap fun ⟨c, h⟩ =>
        have : t.size - c < t.size - id := Nat.sub_lt_sub_left (Nat.lt_trans h.1 h.2) h.1
        let usage := (t.node c).usage
        usageFrom t source restricted c (if line = "" then usage else joinUsage line usage)
termination_by t.size - id

/-- Every way below a node that ends at a handler or a redirect. -/
def allUsage (t : CommandTree σ) (id : NodeId) (source : σ) (restricted : Bool) : List String :=
  t.usageFrom source restricted id ""

/-! ## Compact lines -/

/-- Brackets around what may be left out. -/
def bracketed (optional : Bool) (usage : String) : String :=
  if optional then "[" ++ usage ++ "]" else usage

/-- The members of a list of texts, each where it occurs first. -/
def distinctTexts : List String → List String
  | [] => []
  | s :: rest => s :: (distinctTexts rest).filter fun t => t ≠ s

/-- What follows a node that has several children: the one form they share, or the alternatives. -/
def alternatives (t : CommandTree σ) (optional : Bool) (children : List NodeId) : String :=
  match distinctTexts (children.map fun c => bracketed optional (t.node c).usage) with
  | [usage] => bracketed optional usage
  | _ =>
    let body := Text.join "|" (children.map fun c => (t.node c).usage)
    if optional then "[" ++ body ++ "]" else "(" ++ body ++ ")"

/-- The line of a node that is shown. -/
def smartLine (t : CommandTree σ) (source : σ) (restricted : Bool) (id : NodeId) (optional : Bool) :
    String :=
  let n := t.node id
  let own := bracketed optional n.usage
  match n.target? with
  | some target => joinUsage own (t.redirectUsage target)
  | none =>
    let below := n.handler.isSome
    match (t.later id).filter fun c => t.shown source restricted c.1 with
    | [] => own
    | [⟨only, h⟩] =>
      have : t.size - only < t.size - id := Nat.sub_lt_sub_left (Nat.lt_trans h.1 h.2) h.1
      joinUsage own
        (if below then bracketed below (t.node only).usage
         else smartLine t source restricted only below)
    | several => joinUsage own (t.alternatives below (several.map Subtype.val))
termination_by t.size - id

/-- One line for each child of a node. -/
def smartUsage (t : CommandTree σ) (id : NodeId) (source : σ) (restricted : Bool) :
    List (NodeId × String) :=
  let optional := (t.node id).handler.isSome
  ((t.children id).filter (t.shown source restricted)).map fun c =>
    (c, t.smartLine source restricted c optional)

end CommandTree
end CommandEngine
