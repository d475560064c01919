import TinyScript.Grammar.Reading
import TinyScript.Token.KindSet

/-!
# Recovery

After a mistake that stops a statement, reading resumes at the next place where a
statement is likely to begin: after a semicolon, or before a word that begins a
statement. The token at fault is skipped in any case, so recovery always advances.
-/

namespace TinyScript.Grammar

/-- Whether the tokens begin with a word that begins a statement. -/
def startsStatement : List Token → Bool
  | t :: _ => Token.KindSet.statementStart.contains t.kind
  | [] => false

/-- Skips to the next place where a statement is likely to begin, past at least one token. -/
def synchronize : List Token → List Token
  | [] => []
  | t :: rest =>
    if t.kind = .semicolon then rest
    else if startsStatement rest then rest
    else synchronize rest

/-- Recovery skips a token if there is one. -/
theorem length_synchronize_cons (t : Token) (rest : List Token) :
    (synchronize (t :: rest)).length ≤ rest.length := by
  induction rest generalizing t with
  | nil => simp [synchronize]
  | cons u rest ih =>
    rw [synchronize]
    split
    · exact Nat.le_refl _
    · split
      · exact Nat.le_refl _
      · exact Nat.le_succ_of_le (ih u)

/-- Recovery from some of `n + 1` tokens leaves at most `n`. -/
theorem length_synchronize_lt {ts : List Token} {n : Nat} (hLength : ts.length ≤ n) (hPos : 0 < n) :
    (synchronize ts).length < n := by
  cases ts with
  | nil => simpa [synchronize] using hPos
  | cons t rest =>
    have hSkip := length_synchronize_cons t rest
    simp only [List.length_cons] at hLength
    omega

end TinyScript.Grammar
