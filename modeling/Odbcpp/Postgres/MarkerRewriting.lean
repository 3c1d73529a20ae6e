import Odbcpp.Postgres.BodyGrammar

/-!
# Marker rewriting

`replace_parameter_markers` and the grammar: a text has one division into lexical bodies and
bytes of ordinary text, and the question marks among the latter are replaced, each by its
number.
-/

namespace Odbcpp.Postgres

open Foundation Util List

/-! ## The division of a text -/

/-- A byte of ordinary text, or a whole body. -/
inductive SqlSegment where
  | plain (byte : UInt8)
  | body (bytes : Bytes)
deriving DecidableEq

/-- The division of a text that follows `before`: a body wherever one stands, and single bytes
elsewhere. -/
inductive SqlSegments : Bytes → Bytes → List SqlSegment → Prop where
  | nil {before} : SqlSegments before [] []
  | body {before bytes rest segments} (isBody : Body before bytes rest)
      (later : SqlSegments (bytes.reverse ++ before) rest segments) :
      SqlSegments before (bytes ++ rest) (.body bytes :: segments)
  | plain {before rest byte segments}
      (outside : ∀ bytes more, bytes ++ more = byte :: rest → ¬Body before bytes more)
      (later : SqlSegments (byte :: before) rest segments) :
      SqlSegments before (byte :: rest) (.plain byte :: segments)

/-- A question mark outside of every body. -/
def SqlSegment.isMarker : SqlSegment → Bool
  | .plain byte => byte = code '?'
  | .body _ => false

/-- The text with each marker replaced by its number, after a number of markers. -/
def rewriteSegments : Nat → List SqlSegment → Bytes
  | _, [] => []
  | markers, .body bytes :: segments => bytes ++ rewriteSegments markers segments
  | markers, .plain byte :: segments =>
    if byte = code '?' then
      code '$' :: decimal (markers + 1) ++ rewriteSegments (markers + 1) segments
    else byte :: rewriteSegments markers segments

theorem SqlSegments.unique {before text first second}
    (isFirst : SqlSegments before text first) (isSecond : SqlSegments before text second) :
    first = second := by
  induction isFirst generalizing second with
  | nil =>
    generalize isText : ([] : Bytes) = text at isSecond
    cases isSecond with
    | nil => rfl
    | body isBody =>
      obtain ⟨ch, rest, same, -⟩ := isBody.length_eq
      rw [← isText] at same
      cases same
    | plain => cases isText
  | @body before bytes rest segments isBody _ ih =>
    generalize isText : bytes ++ rest = text at isSecond
    cases isSecond with
    | nil =>
      obtain ⟨ch, rest, same, -⟩ := isBody.length_eq
      rw [isText] at same
      cases same
    | body isOther later =>
      obtain ⟨rfl, rfl⟩ := isBody.unique isOther isText
      rw [ih later]
    | plain outside => exact absurd isBody (outside _ _ isText)
  | @plain before rest byte segments outside _ ih =>
    generalize isText : byte :: rest = text at isSecond
    cases isSecond with
    | nil => cases isText
    | body isOther => exact absurd isOther (outside _ _ isText.symm)
    | plain _ later =>
      obtain ⟨rfl, rfl⟩ := List.cons.inj isText
      rw [ih later]

/-! ## The rewriting -/

theorem rewriteTokens_append {tokens more} (markers : Nat)
    (none : ∀ token ∈ tokens, token.iteration.marker = false) :
    rewriteTokens markers (tokens ++ more) =
      { rewriteTokens markers more with
        sql := tokens.flatMap Token.taken ++ (rewriteTokens markers more).sql } := by
  induction tokens with
  | nil => rfl
  | cons token tokens ih =>
    obtain ⟨first, others⟩ := forall_mem_cons.mp none
    simp [rewriteTokens, first, ih others]

theorem exists_segments (before text : Bytes) (markers : Nat) :
    ∃ segments, SqlSegments before text segments ∧
      rewriteTokens markers (markerScanner.tokens .normal before text) =
        ⟨rewriteSegments markers segments, markers + segments.countP SqlSegment.isMarker⟩ := by
  induction isSize : text.length using Nat.strong_induction_on
    generalizing before text markers with
  | _ size ih =>
    rcases text with _ | ⟨ch, rest⟩
    · exact ⟨[], .nil, rfl⟩
    rcases place_cases before ch rest with ⟨bytes, more, place⟩ | ⟨noBody, lexeme⟩
    · obtain ⟨tokens, last, reads, none, resumes⟩ := place.copied
      have shorter : more.length < size := by
        have nonempty : bytes ≠ [] := place.isBody.ne_nil
        have positive := length_pos_iff.mpr nonempty
        rw [← isSize, place.text, length_append]
        omega
      obtain ⟨segments, areSegments, rewritten⟩ :=
        ih more.length shorter (bytes.reverse ++ before) more markers rfl
      have onward : markerScanner.tokens last (bytes.reverse ++ before) more =
          markerScanner.tokens .normal (bytes.reverse ++ before) more := by
        rcases resumes with rfl | rfl
        · rfl
        · simp
      have copied : tokens.flatMap Token.taken = bytes :=
        append_cancel_right reads.text_eq.1.symm
      refine ⟨.body bytes :: segments, place.text ▸ .body place.isBody areSegments, ?_⟩
      rw [place.text, reads.tokens_eq, rewriteTokens_append markers none, onward, rewritten,
        copied]
      simp [rewriteSegments, SqlSegment.isMarker]
    · have outside : ∀ bytes more, bytes ++ more = ch :: rest → ¬Body before bytes more := by
        intro bytes more isText isBody
        obtain ⟨first, others, same, isLength⟩ := isBody.length_eq
        obtain ⟨rfl, rfl⟩ := List.cons.inj (isText.symm.trans same)
        rw [noBody] at isLength
        cases isLength
      have reads := @markerScanner_piece _ _ rest _ [] _ _ lexeme
      rw [nil_append] at reads
      obtain ⟨segments, areSegments, rewritten⟩ := ih rest.length (by simp [← isSize])
        (ch :: before) rest (if ch = code '?' then markers + 1 else markers) rfl
      refine ⟨.plain ch :: segments, .plain outside areSegments, ?_⟩
      rw [reads.tokens_eq, singleton_append, rewriteTokens]
      by_cases isMarker : ch = code '?'
      · simp only [isMarker, decide_true, if_true] at rewritten ⊢
        rw [show markerScanner.tokens .normal ([code '?'].reverse ++ before) rest =
          markerScanner.tokens .normal (code '?' :: before) rest from rfl, rewritten]
        simp [rewriteSegments, SqlSegment.isMarker, Nat.add_right_comm, Nat.add_assoc]
      simp only [isMarker, decide_false, if_false, Bool.false_eq_true] at rewritten ⊢
      rw [show markerScanner.tokens .normal ([ch].reverse ++ before) rest =
        markerScanner.tokens .normal (ch :: before) rest from rfl, rewritten]
      simp [rewriteSegments, SqlSegment.isMarker, isMarker]

def parameterMarkerCount (sql : Bytes) : Nat := (replaceParameterMarkers sql).markerCount

/-- Every text has one division into bodies and other bytes; of the latter the question marks are
replaced by their numbers, and everything else is copied. -/
theorem replaceParameterMarkers_segments (sql : Bytes) : ∃ segments, SqlSegments [] sql segments ∧
      (∀ other, SqlSegments [] sql other → other = segments) ∧
      (replaceParameterMarkers sql).sql = rewriteSegments 0 segments ∧
      (replaceParameterMarkers sql).markerCount = segments.countP SqlSegment.isMarker ∧
      parameterMarkerCount sql = segments.countP SqlSegment.isMarker := by
  obtain ⟨segments, areSegments, rewritten⟩ := exists_segments [] sql 0
  rw [Nat.zero_add] at rewritten
  have isRewrite : replaceParameterMarkers sql = ⟨rewriteSegments 0 segments, _⟩ :=
    (replaceParameterMarkers_eq sql).trans rewritten
  refine ⟨segments, areSegments, fun other isOther => isOther.unique areSegments, ?_, ?_, ?_⟩
  · rw [isRewrite]
  · rw [isRewrite]
  · rw [parameterMarkerCount, isRewrite]

end Odbcpp.Postgres
