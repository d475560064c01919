import TinyScript.Token.Kind

/-!
# Sets of token kinds

A set of kinds packed into one 64-bit word: bit `i` says whether the kind with
index `i` is a member. There are 41 kinds, so every bit position lies inside the
word.
-/

namespace TinyScript.Token

/-- A set of kinds, one bit per kind. -/
structure KindSet where
  word : UInt64
deriving DecidableEq, Repr

namespace KindSet

/-- The set without members. -/
def empty : KindSet := ⟨0⟩

/-- The word whose only bit is the one of `k`. -/
def bit (k : Kind) : UInt64 :=
  1 <<< k.index.toUInt64

/-- Adds a kind. -/
def insert (s : KindSet) (k : Kind) : KindSet :=
  ⟨s.word ||| bit k⟩

/-- Whether a kind is a member. -/
def contains (s : KindSet) (k : Kind) : Bool :=
  s.word &&& bit k != 0

/-- Whether a set has no member. -/
def isEmpty (s : KindSet) : Bool :=
  s.word == 0

/-- The set of the kinds in a list. -/
def ofList (ks : List Kind) : KindSet :=
  ks.foldl insert empty

/-- The members in declaration order. -/
def toList (s : KindSet) : List Kind :=
  Kind.all.filter s.contains

/-- The kinds that begin a statement, where reading resumes after an error. -/
def statementStart : KindSet :=
  ofList [.kwClass, .kwFun, .kwVar, .kwFor, .kwIf, .kwWhile, .kwPrint, .kwReturn]

end KindSet

end TinyScript.Token
