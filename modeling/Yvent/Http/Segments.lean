import Yvent.Http.Request

/-!
# Percent escapes and path segments

The scanner of `setPath` stays in `kPercent` when a byte behind a percent sign is no digit, so a
malformed escape goes on until it meets two digits in a row. A path is decoded segment by segment
exactly when each segment closes the escapes that it opens.
-/

namespace Yvent.Http

/-- `'/'` -/
def SLASH : UInt8 := 47

/-- The path that `setPath` leaves in a fresh request, for a range with the byte `after` behind
it. -/
def decode (after : UInt8) (range : Bytes) : Bytes :=
  (({} : HttpRequest).setPath range after).path

variable {after c d : UInt8} {a b rest text : Bytes}

theorem decode_eq (after : UInt8) (range : Bytes) :
    decode after range = pathBytes after .kStart range := rfl

/-! ## Escapes -/

/-- What stands behind a percent sign up to the end of its escape: bytes that are no digits, and
digits with such a byte behind them, are skipped; then come two digits. -/
inductive Escape : Bytes → Prop
  | digits {c d : UInt8} (high : (hexDigit c).isSome) (low : (hexDigit d).isSome) : Escape [c, d]
  | skip {c : UInt8} {text : Bytes} (other : hexDigit c = none) (later : Escape text) :
      Escape (c :: text)
  | skipPair {c d : UInt8} {text : Bytes} (high : (hexDigit c).isSome) (other : hexDigit d = none)
      (later : Escape text) : Escape (c :: d :: text)

/-- What may stand behind a percent sign whose escape does not end. -/
inductive Unended : Bytes → Prop
  | nil : Unended []
  | digit {c : UInt8} (high : (hexDigit c).isSome) : Unended [c]
  | skip {c : UInt8} {text : Bytes} (other : hexDigit c = none) (later : Unended text) :
      Unended (c :: text)
  | skipPair {c d : UInt8} {text : Bytes} (high : (hexDigit c).isSome) (other : hexDigit d = none)
      (later : Unended text) : Unended (c :: d :: text)

/-- Every percent sign that opens an escape has the end of the escape behind it. -/
inductive Closed : Bytes → Prop
  | nil : Closed []
  | plain {c : UInt8} {text : Bytes} (other : c ≠ PERCENT) (later : Closed text) :
      Closed (c :: text)
  | escape {escape text : Bytes} (ends : Escape escape) (later : Closed text) :
      Closed (PERCENT :: (escape ++ text))

theorem hexDigit_percent : hexDigit PERCENT = none := by decide

theorem hexDigit_slash : hexDigit SLASH = none := by decide

theorem ne_percent_of_digit (high : (hexDigit c).isSome) : c ≠ PERCENT := by
  rintro rfl
  rw [hexDigit_percent] at high
  cases high

/-- Behind a percent sign the escape ends somewhere, or everything belongs to it. -/
theorem escape_or_unended :
    ∀ text : Bytes, (∃ escape later, text = escape ++ later ∧ Escape escape) ∨ Unended text
  | [] => Or.inr .nil
  | [c] => by
    cases digit : hexDigit c with
    | none => exact Or.inr (.skip digit .nil)
    | some _ => exact Or.inr (.digit (by rw [digit]; rfl))
  | c :: d :: text => by
    cases high : hexDigit c with
    | none =>
      rcases escape_or_unended (d :: text) with ⟨escape, later, split, ends⟩ | open'
      · exact Or.inl ⟨c :: escape, later, by rw [split]; rfl, .skip high ends⟩
      · exact Or.inr (.skip high open')
    | some _ =>
      have isDigit : (hexDigit c).isSome := by rw [high]; rfl
      cases low : hexDigit d with
      | some _ => exact Or.inl ⟨[c, d], text, rfl, .digits isDigit (by rw [low]; rfl)⟩
      | none =>
        rcases escape_or_unended text with ⟨escape, later, rfl, ends⟩ | open'
        · exact Or.inl ⟨c :: d :: escape, later, rfl, .skipPair isDigit low ends⟩
        · exact Or.inr (.skipPair isDigit low open')

/-- A text closes its escapes, or its last one does not end. -/
theorem closed_or_unended (text : Bytes) : Closed text ∨
    ∃ front open', text = front ++ PERCENT :: open' ∧ Closed front ∧ Unended open' := by
  induction size : text.length using Nat.strong_induction_on generalizing text with
  | _ size ih =>
    subst size
    cases text with
    | nil => exact Or.inl .nil
    | cons c text =>
      by_cases percent : c = PERCENT
      · subst percent
        rcases escape_or_unended text with ⟨escape, later, rfl, ends⟩ | open'
        · have shorter : later.length < (PERCENT :: (escape ++ later)).length := by
            rw [List.length_cons, List.length_append]
            omega
          rcases ih _ shorter later rfl with closed | ⟨front, open', rfl, closed, unended⟩
          · exact Or.inl (.escape ends closed)
          · refine Or.inr ⟨PERCENT :: (escape ++ front), open', ?_, .escape ends closed, unended⟩
            simp
        · exact Or.inr ⟨[], text, rfl, .nil, open'⟩
      · have shorter : text.length < (c :: text).length := Nat.lt_succ_self _
        rcases ih _ shorter text rfl with closed | ⟨front, open', rfl, closed, unended⟩
        · exact Or.inl (.plain percent closed)
        · exact Or.inr ⟨c :: front, open', rfl, .plain percent closed, unended⟩

/-! ## The scanner -/

theorem pathBytes_plain (other : c ≠ PERCENT) (rest : Bytes) :
    pathBytes after .kStart (c :: rest) = c :: pathBytes after .kStart rest := by
  rw [pathBytes, if_neg other]

theorem pathBytes_percent (rest : Bytes) :
    pathBytes after .kStart (PERCENT :: rest) = pathBytes after .kPercent rest := by
  rw [pathBytes, if_pos rfl]

theorem pathBytes_skip (other : hexDigit c = none) (rest : Bytes) :
    pathBytes after .kPercent (c :: rest) = pathBytes after .kPercent rest := by
  cases rest with
  | nil => simp [pathBytes, other]
  | cons d rest => simp [pathBytes, other]

theorem pathBytes_skipPair (high : (hexDigit c).isSome) (other : hexDigit d = none) (rest : Bytes) :
    pathBytes after .kPercent (c :: d :: rest) = pathBytes after .kPercent rest := by
  obtain ⟨hex1, high⟩ := Option.isSome_iff_exists.mp high
  simp [pathBytes, high, other]

/-- An escape gives one byte, whatever follows. -/
theorem pathBytes_escape (after : UInt8) (ends : Escape text) :
    ∃ byte, ∀ rest, pathBytes after .kPercent (text ++ rest) =
      byte :: pathBytes after .kStart rest := by
  induction ends with
  | @digits c d high low =>
    obtain ⟨hex1, high⟩ := Option.isSome_iff_exists.mp high
    obtain ⟨hex2, low⟩ := Option.isSome_iff_exists.mp low
    exact ⟨(hex1 <<< 4) + hex2, fun rest => by simp [pathBytes, high, low]⟩
  | skip other _ ih =>
    obtain ⟨byte, ih⟩ := ih
    refine ⟨byte, fun rest => ?_⟩
    rw [List.cons_append, pathBytes_skip other, ih]
  | skipPair high other _ ih =>
    obtain ⟨byte, ih⟩ := ih
    refine ⟨byte, fun rest => ?_⟩
    rw [List.cons_append, List.cons_append, pathBytes_skipPair high other, ih]

/-- A text that closes its escapes is decoded on its own. -/
theorem pathBytes_closed (closed : Closed a) (rest : Bytes) : pathBytes after .kStart (a ++ rest) =
    pathBytes after .kStart a ++ pathBytes after .kStart rest := by
  induction closed with
  | nil => rfl
  | plain other _ ih =>
    rw [List.cons_append, pathBytes_plain other, pathBytes_plain other, ih, List.cons_append]
  | @escape escape text ends _ ih =>
    obtain ⟨byte, gives⟩ := pathBytes_escape after ends
    rw [List.cons_append, pathBytes_percent, pathBytes_percent, List.append_assoc, gives, gives, ih,
      List.cons_append]

/-- An escape that has not ended swallows a byte that is no digit and goes on. -/
theorem pathBytes_unended (unended : Unended text) (other : hexDigit c = none) (rest : Bytes) :
    pathBytes after .kPercent (text ++ c :: rest) = pathBytes after .kPercent rest := by
  induction unended with
  | nil => exact pathBytes_skip other rest
  | digit high => exact pathBytes_skipPair high other rest
  | skip other' _ ih => rw [List.cons_append, pathBytes_skip other', ih]
  | skipPair high other' _ ih =>
    rw [List.cons_append, List.cons_append, pathBytes_skipPair high other', ih]

/-- At the end of the range it gives nothing, as the byte behind the range is no digit. -/
theorem pathBytes_unended_nil (ends : hexDigit after = none) (unended : Unended text) :
    pathBytes after .kPercent text = [] := by
  induction unended with
  | nil => rfl
  | @digit c high =>
    obtain ⟨hex1, high⟩ := Option.isSome_iff_exists.mp high
    simp [pathBytes, high, ends]
  | skip other _ ih => rw [pathBytes_skip other, ih]
  | skipPair high other _ ih => rw [pathBytes_skipPair high other, ih]

/-- Inside an escape the scanner gives no more bytes than outside. -/
theorem length_pathBytes_le (after : UInt8) : ∀ text : Bytes,
    (pathBytes after .kPercent text).length ≤ (pathBytes after .kStart text).length
  | [] => Nat.le_refl _
  | [c] => by
    by_cases percent : c = PERCENT
    · rw [percent, pathBytes_percent, pathBytes_skip hexDigit_percent]
    · have atMostOne : (pathBytes after .kPercent [c]).length ≤ 1 := by
        simp only [pathBytes]
        split <;> simp
      rw [pathBytes_plain percent, List.length_cons]
      omega
  | c :: d :: text => by
    cases high : hexDigit c with
    | none =>
      rw [pathBytes_skip high]
      by_cases percent : c = PERCENT
      · rw [percent, pathBytes_percent]
      · have shorter := length_pathBytes_le after (d :: text)
        rw [pathBytes_plain percent, List.length_cons]
        omega
    | some _ =>
      have isDigit : (hexDigit c).isSome := by rw [high]; rfl
      rw [pathBytes_plain (ne_percent_of_digit isDigit), List.length_cons]
      cases low : hexDigit d with
      | none =>
        rw [pathBytes_skipPair isDigit low]
        by_cases percent : d = PERCENT
        · rw [percent, pathBytes_percent]
          omega
        · have shorter := length_pathBytes_le after text
          rw [pathBytes_plain percent, List.length_cons]
          omega
      | some _ =>
        have isDigit' : (hexDigit d).isSome := by rw [low]; rfl
        obtain ⟨byte, gives⟩ := pathBytes_escape after (.digits isDigit isDigit')
        have whole : pathBytes after .kPercent (c :: d :: text) = _ := gives text
        rw [whole, pathBytes_plain (ne_percent_of_digit isDigit'), List.length_cons,
          List.length_cons]
        omega

/-! ## Separators -/

theorem hexDigit_ends (ends : after = SP ∨ after = QUESTION) : hexDigit after = none := by
  rcases ends with rfl | rfl <;> decide

/-- `setPath` decodes what stands before a separator and what stands behind it on their own exactly
when the former closes its escapes. -/
theorem decode_separator_iff (ends : after = SP ∨ after = QUESTION) (a b : Bytes) :
    decode after (a ++ SLASH :: b) = decode after a ++ SLASH :: decode after b ↔ Closed a := by
  constructor
  · intro apart
    rcases closed_or_unended a with closed | ⟨front, open', rfl, closed, unended⟩
    · exact closed
    · -- The separator is lost, and nothing behind it makes up for it.
      have before : decode after (front ++ PERCENT :: open') = decode after front := by
        rw [decode_eq, pathBytes_closed closed, pathBytes_percent,
          pathBytes_unended_nil (hexDigit_ends ends) unended, List.append_nil, decode_eq]
      have whole : decode after (front ++ PERCENT :: open' ++ SLASH :: b) =
          decode after front ++ pathBytes after .kPercent b := by
        rw [List.append_assoc, List.cons_append, decode_eq, pathBytes_closed closed,
          pathBytes_percent, pathBytes_unended unended hexDigit_slash, decode_eq]
      rw [before, whole, List.append_cancel_left_eq] at apart
      have shorter := length_pathBytes_le after b
      rw [apart, List.length_cons, decode_eq] at shorter
      omega
  · intro closed
    have slash : SLASH ≠ PERCENT := by decide
    rw [decode_eq, pathBytes_closed closed, pathBytes_plain slash, decode_eq, decode_eq]

/-- `"%2e%2E"` -/
def dots : Bytes := ascii ['%', '2', 'e', '%', '2', 'E']

theorem decode_dots : decode SP (dots ++ SLASH :: [120]) = ascii ['.', '.', '/', 'x'] := by
  have closed : Closed dots :=
    .escape (.digits (by decide) (by decide)) (.escape (.digits (by decide) (by decide)) .nil)
  rw [(decode_separator_iff (Or.inl rfl) dots [120]).mpr closed]
  decide

/-- Behind a bare percent sign the separator is lost, and two digits of the next segment become one
byte. -/
theorem escape_swallows_separator :
    decode SP ([PERCENT] ++ SLASH :: [52, 49]) = [65] ∧
      decode SP ([PERCENT] ++ SLASH :: [52, 49]) ≠
        decode SP [PERCENT] ++ SLASH :: decode SP [52, 49] := by
  decide

end Yvent.Http
