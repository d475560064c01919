import TinyScript.Proofs.Source.Positions
import TinyScript.Proofs.Source.Quoting
import TinyScript.Source.Words

/-!
# The line counter has 32 bits

Reading with a counter of 32 bits differs from reading without a bound in the lines only.
As long as the line feeds of a source are fewer than `2 ^ 32 - 1`, the counter never wraps
around and the two readings are the same (`lexWords_eq_lex`).

A string literal in front of a source moves the source down by the line feeds that are kept
in the literal. The counter adds them up in words, so what is said of all sources is said
in words too, and numbers take the place of words where the counter does not wrap around.

## Main results

* `stamp_add`: segments behind a counter that holds more.
* `map_placed_stamp`, `lexWords_eq_lex`: the counter while it does not wrap around.
* `lexWords_quote_append`: string literals, with lines in words.
* `lexWords_quote_lineFeeds`: the shortest literal that makes the counter wrap around.
-/

namespace TinyScript.Source

/-! ## Counting in words -/

theorem stampInto_eq (acc : List Stamped) (line : UInt32) (segs : List Segment) :
    stampInto acc line segs = (acc.reverse ++ (stamp line segs).1, (stamp line segs).2) := by
  induction segs generalizing acc line with
  | nil => simp [stamp, stampInto]
  | cons s rest ih =>
      rw [stamp, stampInto, stampInto, ih, ih [_]]
      simp

theorem stamp_cons (line : UInt32) (s : Segment) (segs : List Segment) :
    stamp line (s :: segs) =
      (⟨s, line⟩ :: (stamp (line + s.feedsWord) segs).1, (stamp (line + s.feedsWord) segs).2) := by
  rw [stamp, stampInto, stampInto_eq]
  rfl

theorem tokens_lexWords (source : String) :
    (lexWords source).tokens = (stamp 1 (segments source.toList)).1.filterMap Stamped.token? ++
      [Token.endOfFile (stamp 1 (segments source.toList)).2.toNat] :=
  rfl

theorem diagnostics_lexWords (source : String) :
    (lexWords source).diagnostics =
      (stamp 1 (segments source.toList)).1.filterMap Stamped.diagnostic? :=
  rfl

/-- Line feeds that are not too many are counted one by one. -/
theorem Segment.toNat_feedsWord (s : Segment) :
    s.feedsWord.toNat = min (s.text.count '\n') maxWord := by
  have hWord : min (s.text.count '\n') maxWord < 2 ^ 32 := by
    rw [maxWord]
    omega
  rw [feedsWord, UInt32.toNat_ofNat', Nat.mod_eq_of_lt hWord]

/-! ## Without wrapping around -/

namespace Stamped

/-- The segment on the line that the counter holds. -/
def placed (s : Stamped) : Placed :=
  ⟨s.segment, s.line.toNat⟩

theorem toNat_endLine {s : Stamped} (h : s.placed.endLine < 2 ^ 32) :
    s.endLine.toNat = s.placed.endLine := by
  simp only [placed, Placed.endLine] at h ⊢
  rw [endLine, UInt32.toNat_add, Segment.toNat_feedsWord, maxWord]
  omega

theorem diagnostic?_placed {s : Stamped} (h : s.placed.endLine < 2 ^ 32) :
    s.placed.diagnostic? = s.diagnostic? := by
  rw [diagnostic?, toNat_endLine h]
  rfl

end Stamped

/-- While the lines are words, the counter holds the lines. -/
theorem map_placed_stamp (line : UInt32) (segs : List Segment)
    (h : (place line.toNat segs).2 < 2 ^ 32) :
    (stamp line segs).1.map Stamped.placed = (place line.toNat segs).1 ∧
      (stamp line segs).2.toNat = (place line.toNat segs).2 := by
  induction segs generalizing line with
  | nil => exact ⟨rfl, rfl⟩
  | cons s rest ih =>
      rw [place_cons] at h ⊢
      have hNext : (line + s.feedsWord).toNat = line.toNat + s.text.count '\n' := by
        refine Stamped.toNat_endLine (s := ⟨s, line⟩) (Nat.lt_of_le_of_lt ?_ h)
        rw [snd_place]
        exact Nat.le_add_right _ _
      rw [← hNext] at h
      obtain ⟨hRest, hEnd⟩ := ih _ h
      rw [stamp_cons, ← hNext]
      exact ⟨by rw [List.map_cons, hRest]; rfl, hEnd⟩

/-- **A counter of 32 bits is as good as any** for sources with fewer than `2 ^ 32 - 1` line
feeds. -/
theorem lexWords_eq_lex {source : String} (h : source.toList.count '\n' < 2 ^ 32 - 1) :
    lexWords source = lex source := by
  have hEnd : (place 1 (segments source.toList)).2 < 2 ^ 32 := by
    rw [snd_place_segments]
    omega
  have hStamp := map_placed_stamp 1 (segments source.toList) hEnd
  have hPlaced : (stamp 1 (segments source.toList)).1.map Stamped.placed =
      (place 1 (segments source.toList)).1 := hStamp.1
  have hLast : (stamp 1 (segments source.toList)).2.toNat =
      (place 1 (segments source.toList)).2 := hStamp.2
  have hTokens : (lexWords source).tokens = (lex source).tokens := by
    rw [tokens_lexWords, tokens_lex, hLast, ← hPlaced, List.filterMap_map]
    rfl
  have hDiagnostics : (lexWords source).diagnostics = (lex source).diagnostics := by
    rw [diagnostics_lexWords, diagnostics_lex, ← hPlaced, List.filterMap_map]
    refine List.filterMap_congr fun s hs => ?_
    have hMem : s.placed ∈ (place 1 (segments source.toList)).1 :=
      hPlaced ▸ List.mem_map_of_mem hs
    exact (s.diagnostic?_placed (Nat.lt_of_le_of_lt (endLine_le_of_mem_place hMem) hEnd)).symm
  have hFields (l : Lexed) : l = ⟨l.tokens, l.diagnostics⟩ := rfl
  rw [hFields (lexWords source), hTokens, hDiagnostics]

/-! ## Further down -/

/-- The line that is `feeds` line feeds below a line, as the counter has it if they are counted
at once. -/
def lineBelow (feeds line : Nat) : Nat :=
  (line + min feeds maxWord) % 2 ^ 32

/-- The segment with a counter that holds more. -/
def Stamped.lower (d : UInt32) (s : Stamped) : Stamped :=
  { s with line := s.line + d }

theorem Stamped.endLine_lower (d : UInt32) (s : Stamped) :
    (s.lower d).endLine = s.endLine + d := by
  rw [endLine, endLine, lower, UInt32.add_assoc, UInt32.add_comm d, UInt32.add_assoc]

/-- Behind a counter that holds more it holds more at every segment, by as much. -/
theorem stamp_add (line d : UInt32) (segs : List Segment) :
    stamp (line + d) segs =
      ((stamp line segs).1.map (Stamped.lower d), (stamp line segs).2 + d) := by
  induction segs generalizing line with
  | nil => rfl
  | cons s rest ih =>
      have hNext : line + d + s.feedsWord = line + s.feedsWord + d :=
        Stamped.endLine_lower d ⟨s, line⟩
      rw [stamp_cons, stamp_cons, hNext, ih]
      rfl

section Below

variable {d : UInt32} {feeds : Nat} (h : d.toNat = min feeds maxWord)

include h

theorem toNat_add_of_toNat_eq (line : UInt32) : (line + d).toNat = lineBelow feeds line.toNat := by
  rw [UInt32.toNat_add, h, lineBelow]

namespace Stamped

theorem token?_lower (s : Stamped) :
    (s.lower d).token? = s.token?.map (Token.mapLine (lineBelow feeds)) := by
  rw [token?, lower, toNat_add_of_toNat_eq h]
  exact s.segment.tokenOn?_mapLine _ _

theorem diagnostic?_lower (s : Stamped) :
    (s.lower d).diagnostic? = s.diagnostic?.map (Diagnostic.mapLine (lineBelow feeds)) := by
  rw [diagnostic?, endLine_lower, toNat_add_of_toNat_eq h, lower, toNat_add_of_toNat_eq h]
  exact s.segment.diagnosticOn?_mapLine _ _ _

end Stamped

end Below

/-! ## String literals -/

variable (keep : Nat → Bool) (s rest : String)

/-- A literal and the source behind it, with the counter at each segment. -/
theorem exists_stamp_quote_append :
    ∃ d : UInt32, d.toNat = min (keptFeeds keep s.toList) maxWord ∧
      stamp 1 (segments (quote keep s ++ rest).toList) =
        (⟨.token .text ('"' :: (escape keep s.toList ++ ['"'])) (some (.text s)), 1⟩ ::
            (stamp 1 (segments rest.toList)).1.map (Stamped.lower d),
          (stamp 1 (segments rest.toList)).2 + d) := by
  let literal : Segment := .token .text ('"' :: (escape keep s.toList ++ ['"'])) (some (.text s))
  refine ⟨literal.feedsWord, ?_, ?_⟩
  · rw [literal.toNat_feedsWord]
    exact congrArg (fun n => min n maxWord) (count_quoted keep s.toList)
  · rw [toList_quote_append, segments_quoted (units_escape keep _) (spells_escape keep _),
      String.ofList_toList, stamp_cons, stamp_add]

theorem tokens_lexWords_quote_append :
    (lexWords (quote keep s ++ rest)).tokens = ⟨.text, quote keep s, some (.text s), 1⟩ ::
      (lexWords rest).tokens.map (Token.mapLine (lineBelow (keptFeeds keep s.toList))) := by
  obtain ⟨d, hFeeds, hStamp⟩ := exists_stamp_quote_append keep s rest
  rw [tokens_lexWords, tokens_lexWords, hStamp, List.map_append,
    ← filterMap_map_of_eq (Stamped.token?_lower hFeeds), toNat_add_of_toNat_eq hFeeds,
    List.filterMap_cons]
  simp only [Stamped.token?, Segment.tokenOn?, ofList_quote]
  rfl

theorem diagnostics_lexWords_quote_append :
    (lexWords (quote keep s ++ rest)).diagnostics = (lexWords rest).diagnostics.map
      (Diagnostic.mapLine (lineBelow (keptFeeds keep s.toList))) := by
  obtain ⟨d, hFeeds, hStamp⟩ := exists_stamp_quote_append keep s rest
  rw [diagnostics_lexWords, diagnostics_lexWords, hStamp,
    ← filterMap_map_of_eq (Stamped.diagnostic?_lower hFeeds)]
  rfl

theorem count_quote_append :
    (quote keep s ++ rest).toList.count '\n' =
      keptFeeds keep s.toList + rest.toList.count '\n' := by
  rw [toList_quote_append, ← count_escape]
  simp

/--
**String literals round-trip.** Let a text be written as a string literal, with each of its
line feeds escaped or kept, and let any source follow. The first token is the string on
line 1 that stands for the text and is written as the literal. Behind it come the tokens
of the source that follows, and the diagnostics are those of that source, all moved down
by the line feeds that were kept, as far as the counter has room. If there are fewer than
`2 ^ 32 - 1` line feeds in all, every line is increased by the number of those kept.
-/
theorem lexWords_quote_append :
    (lexWords (quote keep s ++ rest)).tokens = ⟨.text, quote keep s, some (.text s), 1⟩ ::
        (lexWords rest).tokens.map (Token.mapLine (lineBelow (keptFeeds keep s.toList))) ∧
      (lexWords (quote keep s ++ rest)).diagnostics = (lexWords rest).diagnostics.map
        (Diagnostic.mapLine (lineBelow (keptFeeds keep s.toList))) ∧
      (keptFeeds keep s.toList + rest.toList.count '\n' < 2 ^ 32 - 1 →
        (lexWords (quote keep s ++ rest)).tokens = ⟨.text, quote keep s, some (.text s), 1⟩ ::
            (lexWords rest).tokens.map (Token.mapLine (· + keptFeeds keep s.toList)) ∧
          (lexWords (quote keep s ++ rest)).diagnostics =
            (lexWords rest).diagnostics.map
              (Diagnostic.mapLine (· + keptFeeds keep s.toList))) := by
  refine ⟨tokens_lexWords_quote_append keep s rest, diagnostics_lexWords_quote_append keep s rest,
    fun hFew => ?_⟩
  have hRest : rest.toList.count '\n' < 2 ^ 32 - 1 := by omega
  have hWhole : (quote keep s ++ rest).toList.count '\n' < 2 ^ 32 - 1 := by
    rw [count_quote_append]
    exact hFew
  rw [lexWords_eq_lex hWhole, lexWords_eq_lex hRest]
  exact lex_quote_append keep s rest

theorem keptFeeds_replicate (n : Nat) :
    keptFeeds (fun _ => true) (List.replicate n '\n') = n := by
  induction n with
  | zero => rfl
  | succ n ih =>
      rw [List.replicate_succ, keptFeeds, ih, if_pos ⟨rfl, rfl⟩]
      omega

theorem tokens_lexWords_empty : (lexWords "").tokens = [.endOfFile 1] := by
  rw [tokens_lexWords, String.toList_empty, segments_nil]
  rfl

/-- A literal of `2 ^ 32 - 1` line feeds brings the counter back to zero, so that the end mark
behind it is not on the line `2 ^ 32`. -/
theorem lexWords_quote_lineFeeds :
    let keep : Nat → Bool := fun _ => true
    let s := String.ofList (List.replicate (2 ^ 32 - 1) '\n')
    (lexWords (quote keep s ++ "")).tokens =
        [⟨.text, quote keep s, some (.text s), 1⟩, .endOfFile 0] ∧
      (lexWords (quote keep s ++ "")).tokens ≠ ⟨.text, quote keep s, some (.text s), 1⟩ ::
        (lexWords "").tokens.map (Token.mapLine (· + keptFeeds keep s.toList)) := by
  -- The number is kept as a variable, so that nothing computes the literal.
  obtain ⟨n, hn⟩ : ∃ n : Nat, n = 2 ^ 32 - 1 := ⟨_, rfl⟩
  rw [← hn]
  intro keep s
  have hFeeds : keptFeeds keep s.toList = n := by
    rw [String.toList_ofList, keptFeeds_replicate]
  have hZero : lineBelow n 1 = 0 := by
    rw [hn]
    decide
  have hTokens : (lexWords (quote keep s ++ "")).tokens =
      [⟨.text, quote keep s, some (.text s), 1⟩, .endOfFile 0] := by
    rw [tokens_lexWords_quote_append, tokens_lexWords_empty, hFeeds, ← hZero]
    rfl
  refine ⟨hTokens, fun hEq => ?_⟩
  rw [hTokens, tokens_lexWords_empty, hFeeds] at hEq
  have hMark : Token.endOfFile 0 = Token.endOfFile (1 + n) :=
    (List.cons.inj (List.cons.inj hEq).2).1
  have hLine : 0 = 1 + n := congrArg Token.line hMark
  omega

end TinyScript.Source
