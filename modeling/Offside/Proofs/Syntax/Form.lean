import Mathlib.Data.List.Forall2
import Offside.Proofs.Syntax.Derivation

/-!
# Trees of one form

Two trees have one form if they are built alike. What their leaves have to do with one
another is left open: `leaf` relates tokens that stand at the same place, `placed` relates
placeholders, by index and line, and `colon` relates the lines of blocks. Only the import
clause is never compared.
-/

namespace Offside

open Grammar

variable (leaf : Token → Token → Prop) (placed : Nat → Nat → Nat → Nat → Prop)
  (colon : Nat → Nat → Prop)

structure Expression.Related (expression other : Expression) : Prop where
  left : leaf expression.left other.left
  tail : Option.Rel (fun tail otherTail => leaf tail.1 otherTail.1 ∧
    leaf tail.2 otherTail.2) expression.tail other.tail

structure Comparison.Related (comparison other : Comparison) : Prop where
  left : comparison.left.Related leaf other.left
  tail : Option.Rel (fun tail otherTail => leaf tail.1 otherTail.1 ∧
    tail.2.Related leaf otherTail.2) comparison.tail other.tail

inductive Value.Related : Value → Value → Prop where
  | terminal {token other : Token} (matched : leaf token other) :
      Related (.terminal token) (.terminal other)
  | call {callee other : Token} {arguments others : List Value}
      (name : leaf callee other) (inside : List.Forall₂ Related arguments others) :
      Related (.call callee arguments) (.call other others)

structure Parameter.Related (parameter other : Parameter) : Prop where
  name : leaf parameter.name other.name
  type : leaf parameter.type other.type

/-- Phrases of one form. -/
inductive Grammar.Phrase.Related : Phrase → Phrase → Prop where
  | block {line otherLine : Nat} {list others : List Statement} (lines : colon line otherLine)
      (inside : Related (.statements list) (.statements others)) :
      Related (.block ⟨line, list⟩) (.block ⟨otherLine, others⟩)
  | chainEnd : Related (.continuation [] none) (.continuation [] none)
  | otherwise {body other : Block Statement} (inside : Related (.block body) (.block other)) :
      Related (.continuation [] (some body)) (.continuation [] (some other))
  | branch {keyword otherKeyword : Token} {condition otherCondition : Comparison}
      {body otherBody : Block Statement} {branches otherBranches : List (Branch Statement)}
      {last otherLast : Option (Block Statement)} (word : leaf keyword otherKeyword)
      (compared : condition.Related leaf otherCondition)
      (inside : Related (.block body) (.block otherBody))
      (later : Related (.continuation branches last) (.continuation otherBranches otherLast)) :
      Related (.continuation (⟨keyword, condition, body⟩ :: branches) last)
        (.continuation (⟨otherKeyword, otherCondition, otherBody⟩ :: otherBranches) otherLast)
  | forRange {keyword counter start stop otherKeyword otherCounter otherStart otherStop : Token}
      {body other : Block Statement} (word : leaf keyword otherKeyword)
      (name : leaf counter otherCounter) (low : leaf start otherStart)
      (high : leaf stop otherStop) (inside : Related (.block body) (.block other)) :
      Related (.compound (.forRange keyword counter start stop body))
        (.compound (.forRange otherKeyword otherCounter otherStart otherStop other))
  | whileLoop {keyword otherKeyword : Token} {condition otherCondition : Comparison}
      {body other : Block Statement} (word : leaf keyword otherKeyword)
      (compared : condition.Related leaf otherCondition)
      (inside : Related (.block body) (.block other)) :
      Related (.compound (.whileLoop keyword condition body))
        (.compound (.whileLoop otherKeyword otherCondition other))
  | ifChain {branches otherBranches : List (Branch Statement)}
      {last otherLast : Option (Block Statement)}
      (chain : Related (.continuation branches last) (.continuation otherBranches otherLast)) :
      Related (.compound (.ifChain branches last)) (.compound (.ifChain otherBranches otherLast))
  | declaration {name type otherName otherType : Token} {value other : Value}
      (named : leaf name otherName) (typed : leaf type otherType)
      (initial : value.Related leaf other) :
      Related (.compound (.declaration name type value))
        (.compound (.declaration otherName otherType other))
  | manipulation {target otherTarget : Token} {value other : Expression}
      (named : leaf target otherTarget) (assigned : value.Related leaf other) :
      Related (.compound (.manipulation target value))
        (.compound (.manipulation otherTarget other))
  | call {callee otherCallee : Token} {arguments others : List Value}
      (called : (Value.call callee arguments).Related leaf (.call otherCallee others)) :
      Related (.compound (.call callee arguments)) (.compound (.call otherCallee others))
  | returnValue {keyword value otherKeyword other : Token}
      (word : leaf keyword otherKeyword) (returned : leaf value other) :
      Related (.compound (.returnValue keyword value))
        (.compound (.returnValue otherKeyword other))
  | hoisted {index line otherIndex otherLine : Nat}
      (numbers : placed index line otherIndex otherLine) :
      Related (.compound (.hoisted index line)) (.compound (.hoisted otherIndex otherLine))
  | nil : Related (.statements []) (.statements [])
  | cons {statement other : Statement} {list others : List Statement}
      (first : Related (.compound statement) (.compound other))
      (later : Related (.statements list) (.statements others)) :
      Related (.statements (statement :: list)) (.statements (other :: others))

structure Definition.Related (definition other : Definition) : Prop where
  keyword : leaf definition.keyword other.keyword
  name : leaf definition.name other.name
  parameters : List.Forall₂ (Parameter.Related leaf) definition.parameters other.parameters
  returns : Option.Rel leaf definition.returns other.returns
  body : Phrase.Related leaf placed colon (.block definition.body) (.block other.body)

/-- Programs of one form. -/
structure Program.Related (program other : Program) : Prop where
  body : Phrase.Related leaf placed colon (.statements program.body) (.statements other.body)
  functions : List.Forall₂ (Definition.Related leaf placed colon) program.functions other.functions

end Offside
