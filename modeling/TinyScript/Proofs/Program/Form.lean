import TinyScript.Proofs.Text.Quoting

/-!
# Forms

A form is a word, a quoted text, or a word with further forms behind it between parentheses.
Every tree is shown as one. A word has neither spaces nor parentheses in it and no quote in
front, so it ends where one of these follows. A quoted text may hold anything, but its end is
known. So from the characters of a form one finds the form and the place where it ends, and
it is the same for a row of forms in front of a closing parenthesis.

## Main results

* `chars_append_inj`, `charsAll_append_inj`: a form and a row of forms, and where they end.
* `chars_inj`: a form by itself.
-/

namespace TinyScript

/-- What a tree is shown as. -/
inductive Form where
  | word (w : String)
  | quoted (s : String)
  | node (head : String) (parts : List Form)

namespace Form

mutual

/-- The characters of a form, where `visible` tells the visible ones. -/
def chars (visible : Char → Bool) : Form → List Char
  | .word w => w.toList
  | .quoted s => Text.quotedChars visible s.toList
  | .node head parts => '(' :: (head.toList ++ (charsAll visible parts ++ [')']))

/-- The characters of a row of forms, each with a space before it. -/
def charsAll (visible : Char → Bool) : List Form → List Char
  | [] => []
  | f :: rest => ' ' :: (f.chars visible ++ charsAll visible rest)

end

/-- Whether a character may stand in a word. -/
def isWordChar (c : Char) : Bool :=
  c != ' ' && c != '(' && c != ')'

/-- A class of characters that has no spaces and parentheses. -/
theorem isWordChar_of_class {p : Char → Bool} (hSpace : p ' ' = false) (hOpen : p '(' = false)
    (hClose : p ')' = false) {c : Char} (h : p c = true) : isWordChar c = true := by
  have hNe {d : Char} (hd : p d = false) : (c != d) = true := by
    rw [bne_iff_ne]
    rintro rfl
    rw [h] at hd
    cases hd
  rw [isWordChar, hNe hSpace, hNe hOpen, hNe hClose]
  rfl

/-- Whether a text is a word that cannot be taken for anything else. -/
def IsWord (w : String) : Prop :=
  w.toList.head? ≠ none ∧ w.toList.head? ≠ some '"' ∧ ∀ c ∈ w.toList, isWordChar c = true

mutual

/-- Whether all words of a form are words. The first one of a node need not be told from
anything else. -/
def Plain : Form → Prop
  | .word w => IsWord w
  | .quoted _ => True
  | .node head parts => (∀ c ∈ head.toList, isWordChar c = true) ∧ PlainAll parts

/-- Whether all forms of a row are plain. -/
def PlainAll : List Form → Prop
  | [] => True
  | f :: rest => f.Plain ∧ PlainAll rest

end

/-! ## Where forms end -/

variable {visible : Char → Bool}

/-- Whether a word in front of `rest` ends there. -/
def Ends (rest : List Char) : Prop :=
  ∀ c ∈ rest.head?, isWordChar c = false

theorem ends_nil : Ends [] := by
  intro c hc
  cases hc

/-- A row of forms begins with a space or is empty, and then the parenthesis is next. -/
theorem ends_charsAll (parts : List Form) (rest : List Char) :
    Ends (charsAll visible parts ++ ')' :: rest) := by
  intro c hc
  cases parts
  all_goals
    rw [← Option.some.inj hc]
    decide

/-- A word begins neither like a quoted text nor like a node. -/
theorem IsWord.append_ne {w : String} (h : IsWord w) {c : Char} (hc : c = '"' ∨ c = '(')
    (r r' : List Char) : w.toList ++ r ≠ c :: r' := by
  obtain ⟨hSome, hQuote, hChars⟩ := h
  cases hText : w.toList with
  | nil => simp [hText] at hSome
  | cons d ds =>
      rw [hText] at hQuote hChars
      intro hEq
      obtain ⟨rfl, -⟩ := List.cons.inj hEq
      rcases hc with rfl | rfl
      · exact hQuote rfl
      · exact absurd (hChars '(' List.mem_cons_self) (by decide)

/-! ## Reading forms -/

mutual

/-- A form and the place where it ends are known from the text that begins with it. -/
theorem chars_append_inj : ∀ {f g : Form} {r r' : List Char}, f.Plain → g.Plain → Ends r →
    Ends r' → f.chars visible ++ r = g.chars visible ++ r' → f = g ∧ r = r'
  | .word w, .word w', r, r', hf, hg, hr, hr', h => by
      obtain ⟨hWord, hRest⟩ := Text.append_inj_of_run hf.2.2 hg.2.2 hr hr' h
      exact ⟨congrArg Form.word (String.toList_inj.1 hWord), hRest⟩
  | .word w, .quoted s, r, r', hf, _, _, _, h => absurd h (hf.append_ne (.inl rfl) _ _)
  | .word w, .node head parts, r, r', hf, _, _, _, h => absurd h (hf.append_ne (.inr rfl) _ _)
  | .quoted s, .word w, r, r', _, hg, _, _, h => absurd h.symm (hg.append_ne (.inl rfl) _ _)
  | .quoted s, .quoted s', r, r', _, _, _, _, h => by
      obtain ⟨hText, hRest⟩ := Text.quotedChars_append_inj h
      exact ⟨congrArg Form.quoted (String.toList_inj.1 hText), hRest⟩
  | .quoted s, .node head parts, r, r', _, _, _, _, h => by
      exact absurd (List.cons.inj h).1 (by decide)
  | .node head parts, .word w, r, r', _, hg, _, _, h => absurd h.symm (hg.append_ne (.inr rfl) _ _)
  | .node head parts, .quoted s, r, r', _, _, _, _, h => by
      exact absurd (List.cons.inj h).1 (by decide)
  | .node head parts, .node head' parts', r, r', hf, hg, _, _, h => by
      simp only [chars, List.cons_append, List.append_assoc, List.nil_append, List.cons.injEq,
        true_and] at h
      obtain ⟨hHead, hMore⟩ := Text.append_inj_of_run hf.1 hg.1 (ends_charsAll parts r)
        (ends_charsAll parts' r') h
      obtain ⟨hParts, hRest⟩ := charsAll_append_inj hf.2 hg.2 hMore
      exact ⟨by rw [String.toList_inj.1 hHead, hParts], hRest⟩

/-- A row of forms is known from the text up to the parenthesis behind it. -/
theorem charsAll_append_inj : ∀ {fs gs : List Form} {r r' : List Char}, PlainAll fs →
    PlainAll gs → charsAll visible fs ++ ')' :: r = charsAll visible gs ++ ')' :: r' →
    fs = gs ∧ r = r'
  | [], [], r, r', _, _, h => ⟨rfl, (List.cons.inj h).2⟩
  | [], g :: gs, r, r', _, _, h => absurd (List.cons.inj h).1 (by decide)
  | f :: fs, [], r, r', _, _, h => absurd (List.cons.inj h).1 (by decide)
  | f :: fs, g :: gs, r, r', hf, hg, h => by
      simp only [charsAll, List.cons_append, List.append_assoc, List.cons.injEq, true_and] at h
      obtain ⟨hFirst, hMore⟩ := chars_append_inj hf.1 hg.1 (ends_charsAll fs r)
        (ends_charsAll gs r') h
      obtain ⟨hOthers, hRest⟩ := charsAll_append_inj hf.2 hg.2 hMore
      exact ⟨by rw [hFirst, hOthers], hRest⟩

end

/-- A form is known from its characters. -/
theorem chars_inj {f g : Form} (hf : f.Plain) (hg : g.Plain)
    (h : f.chars visible = g.chars visible) : f = g := by
  have hAppend : f.chars visible ++ [] = g.chars visible ++ [] := by rw [h]
  exact (chars_append_inj hf hg ends_nil ends_nil hAppend).1

end Form

end TinyScript
