import SurveyTables.Proofs.Json.Number
import SurveyTables.Proofs.Json.Tree
import SurveyTables.Proofs.Sequence

/-! The tokens of written values. -/
namespace SurveyTables.Json

open SurveyTables.Text

namespace Scan

def tokensFrom (scan : Scan) (cs : List Char) : Option (List Token) := do
  let (last, tokens) ← cs.foldlM advance (scan, [])
  return ((← last.finish) ++ tokens).reverse

theorem foldlM_advance (scan : Scan) (before : List Token) (cs : List Char) :
    cs.foldlM advance (scan, before) =
      (cs.foldlM advance (scan, [])).map fun state => (state.1, state.2 ++ before) := by
  induction cs generalizing scan before with
  | nil => rfl
  | cons c cs ih =>
    cases next : step scan c with
    | none => simp [advance, next]
    | some found =>
      simp only [List.foldlM_cons, advance, next, Option.map_some, Option.bind_eq_bind,
        Option.bind_some]
      rw [ih _ (found.2 ++ before), ih _ (found.2 ++ [])]
      simp [Function.comp_def]

theorem tokensFrom_nil (scan : Scan) : tokensFrom scan [] = scan.finish.map List.reverse := by
  cases done : scan.finish <;> simp [tokensFrom, done]

theorem tokensFrom_cons (scan : Scan) (c : Char) (cs : List Char) :
    tokensFrom scan (c :: cs) =
      (step scan c).bind fun next => (tokensFrom next.1 cs).map (next.2.reverse ++ ·) := by
  cases next : step scan c with
  | none => simp [tokensFrom, advance, next]
  | some found =>
    simp only [tokensFrom, List.foldlM_cons, advance, next, Option.map_some, Option.bind_eq_bind,
      Option.bind_some]
    rw [foldlM_advance]
    cases cs.foldlM advance (found.1, []) with
    | none => rfl
    | some last => cases done : last.1.finish <;> simp [done]

theorem tokensFrom_silent {scan next : Scan} {c : Char} (silent : step scan c = some (next, []))
    (cs : List Char) : tokensFrom scan (c :: cs) = tokensFrom next cs := by
  rw [tokensFrom_cons, silent]
  exact congrFun Option.map_id _

theorem tokensFrom_start {c : Char} {next : Scan} (begins : start c = some (next, []))
    (cs : List Char) : tokensFrom .between (c :: cs) = tokensFrom next cs := by
  have silent : step .between c = some (next, []) := begins
  exact tokensFrom_silent silent cs

/-- Nothing that begins with these characters continues a word or a number. -/
def Breaks (cs : List Char) : Prop := ∀ c ∈ cs.head?, isNumeric c = false ∧ c.isLower = false

theorem breaks_cons {c : Char} (apart : isNumeric c = false ∧ c.isLower = false)
    (cs : List Char) : Breaks (c :: cs) := by
  rintro _ ⟨⟩
  exact apart

/-- A word or number ends where a character breaks it. -/
theorem tokensFrom_of_breaks {scan : Scan} {done : List Token} (ends : scan.finish = some done)
    {cs : List Char} (breaks : Breaks cs) :
    tokensFrom scan cs = (tokensFrom .between cs).map (done.reverse ++ ·) := by
  cases cs with
  | nil =>
    have between : finish .between = some [] := rfl
    simp [tokensFrom_nil, ends, between]
  | cons c cs =>
    obtain ⟨noNumber, noWord⟩ := breaks c rfl
    have apart : step scan c = (start c).map fun next => (next.1, next.2 ++ done) := by
      cases scan with
      | between =>
        cases ends
        cases begins : start c <;> simp [step, begins]
      | word letters => cases begins : start c <;> simp [step, noWord, ends, begins]
      | number chars => cases begins : start c <;> simp [step, noNumber, ends, begins]
      | _ => contradiction
    rw [tokensFrom_cons, tokensFrom_cons, apart, step]
    cases start c <;> simp [Function.comp_def]

theorem tokensFrom_punctuation {c : Char} {token : Token}
    (single : start c = some (.between, [token])) (cs : List Char) :
    tokensFrom .between (c :: cs) = (tokensFrom .between cs).map (token :: ·) := by
  simp [tokensFrom_cons, step, single]

theorem tokensFrom_word {letters : List Char} (cs rest : List Char)
    (lower : ∀ c ∈ cs, c.isLower = true) :
    tokensFrom (.word letters) (cs ++ rest) = tokensFrom (.word (cs.reverse ++ letters)) rest := by
  induction cs generalizing letters with
  | nil => rfl
  | cons c cs ih =>
    rw [List.forall_mem_cons] at lower
    have silent : step (.word letters) c = some (.word (c :: letters), []) := if_pos lower.1
    rw [List.cons_append, tokensFrom_silent silent, ih lower.2]
    simp

theorem tokensFrom_number {chars : List Char} (cs rest : List Char)
    (numeric : ∀ c ∈ cs, isNumeric c = true) :
    tokensFrom (.number chars) (cs ++ rest) = tokensFrom (.number (cs.reverse ++ chars)) rest := by
  induction cs generalizing chars with
  | nil => rfl
  | cons c cs ih =>
    rw [List.forall_mem_cons] at numeric
    have silent : step (.number chars) c = some (.number (c :: chars), []) := if_pos numeric.1
    rw [List.cons_append, tokensFrom_silent silent, ih numeric.2]
    simp

theorem step_hexDigit (pieces : List Piece) (missing code n : Nat) :
    step (.hex pieces (missing + 1) code) (hexDigit (n % 16)) =
      some (.hex pieces missing (code * 16 + n % 16), []) := by
  simp [step, hexDigit?_hexDigit _ (Nat.mod_lt n (by decide))]

theorem step_lastHexDigit (pieces : List Piece) (code n : Nat) :
    step (.hex pieces 0 code) (hexDigit (n % 16)) =
      some (.literal (pieceOfUnit (code * 16 + n % 16) :: pieces), []) := by
  simp [step, hexDigit?_hexDigit _ (Nat.mod_lt n (by decide))]

theorem tokensFrom_hexNumeral (pieces : List Piece) {code : Nat} (small : code < 0x20)
    (cs : List Char) :
    tokensFrom (.hex pieces 3 0) (hexNumeral 4 code ++ cs) =
      tokensFrom (.literal (.scalar (Char.ofNat code) :: pieces)) cs := by
  have value : (((0 * 16 + code / 16 / 16 / 16 % 16) * 16 + code / 16 / 16 % 16) * 16 +
      code / 16 % 16) * 16 + code % 16 = code := by omega
  have plain : pieceOfUnit code = .scalar (Char.ofNat code) := by
    rw [pieceOfUnit, if_neg (by omega)]
  have digits : hexNumeral 4 code = [hexDigit (code / 16 / 16 / 16 % 16),
      hexDigit (code / 16 / 16 % 16), hexDigit (code / 16 % 16), hexDigit (code % 16)] := rfl
  simp only [digits, List.cons_append, List.nil_append]
  rw [tokensFrom_silent (step_hexDigit ..), tokensFrom_silent (step_hexDigit ..),
    tokensFrom_silent (step_hexDigit ..), tokensFrom_silent (step_lastHexDigit ..), value, plain]

theorem tokensFrom_backslash (pieces : List Piece) {c e : Char} (known : escaped? c = some e)
    (noUnit : c ≠ 'u') (cs : List Char) :
    tokensFrom (.literal pieces) ('\\' :: c :: cs) =
      tokensFrom (.literal (.scalar e :: pieces)) cs := by
  have first : step (.literal pieces) '\\' = some (.escape pieces, []) := rfl
  have second : step (.escape pieces) c = some (.literal (.scalar e :: pieces), []) := by
    simp [step, noUnit, known]
  rw [tokensFrom_silent first, tokensFrom_silent second]

theorem tokensFrom_escape (pieces : List Piece) (c : Char) (cs : List Char) :
    tokensFrom (.literal pieces) (Json.escape c ++ cs) =
      tokensFrom (.literal (.scalar c :: pieces)) cs := by
  unfold Json.escape
  split_ifs with quote backslash b f n r t control
  · subst quote
    exact tokensFrom_backslash pieces rfl (by decide) cs
  · subst backslash
    exact tokensFrom_backslash pieces rfl (by decide) cs
  · subst b
    exact tokensFrom_backslash pieces rfl (by decide) cs
  · subst f
    exact tokensFrom_backslash pieces rfl (by decide) cs
  · subst n
    exact tokensFrom_backslash pieces rfl (by decide) cs
  · subst r
    exact tokensFrom_backslash pieces rfl (by decide) cs
  · subst t
    exact tokensFrom_backslash pieces rfl (by decide) cs
  · have first : step (.literal pieces) '\\' = some (.escape pieces, []) := rfl
    have second : step (.escape pieces) 'u' = some (.hex pieces 3 0, []) := rfl
    have digits := tokensFrom_hexNumeral pieces control cs
    rw [Char.ofNat_toNat] at digits
    rw [List.cons_append, List.cons_append, tokensFrom_silent first, tokensFrom_silent second,
      digits]
  · have plain : step (.literal pieces) c = some (.literal (.scalar c :: pieces), []) := by
      simp [step, quote, backslash, control]
    exact tokensFrom_silent plain cs

theorem tokensFrom_flatMap_escape (pieces : List Piece) (text cs : List Char) :
    tokensFrom (.literal pieces) (text.flatMap Json.escape ++ '"' :: cs) =
      (tokensFrom .between cs).map (.literal (pieces.reverse ++ text.map .scalar) :: ·) := by
  induction text generalizing pieces with
  | nil => simp [tokensFrom_cons, step]
  | cons c text ih => simp [tokensFrom_escape, ih]

/-- A quoted text is one token, whatever characters it holds. -/
theorem tokensFrom_quoted (s : String) (cs : List Char) :
    tokensFrom .between (quoted s ++ cs) =
      (tokensFrom .between cs).map (.literal (.ofText s) :: ·) := by
  have opens : start '"' = some (.literal [], []) := rfl
  have body := tokensFrom_flatMap_escape [] s.toList cs
  simpa [quoted, Literal.ofText, tokensFrom_start opens] using body

theorem start_digitChar : ∀ d : Fin 10,
    start (digitChar d) = some (.number [digitChar d], []) := by decide

theorem isNumeric_digitChar : ∀ d : Fin 10, isNumeric (digitChar d) = true := by decide

end Scan

namespace Number

open Scan

theorem isNumeric_of_mem_digits (ds : List (Fin 10)) :
    ∀ c ∈ ds.map digitChar, isNumeric c = true := by
  intro c member
  obtain ⟨d, -, rfl⟩ := List.mem_map.1 member
  exact isNumeric_digitChar d

theorem isNumeric_of_mem_chars (n : Number) : ∀ c ∈ n.chars, isNumeric c = true := by
  obtain ⟨negative, whole, fraction, exponent⟩ := n
  obtain ⟨lead, rest, numeral, -⟩ := exists_digits whole
  simp only [chars, numeral, List.forall_mem_append]
  refine ⟨⟨⟨?sign, isNumeric_of_mem_digits _⟩, ?fraction⟩, ?exponent⟩
  case sign => cases negative <;> simp [isNumeric]
  case fraction =>
    cases fraction with
    | nil => simp
    | cons d ds => exact List.forall_mem_cons.2 ⟨by decide, isNumeric_of_mem_digits (d :: ds)⟩
  case exponent =>
    cases exponent with
    | none => simp
    | some e =>
      simp only [Option.elim_some, Exponent.chars, List.forall_mem_cons]
      refine ⟨by decide, ?_, isNumeric_of_mem_digits (e.lead :: e.rest)⟩
      cases e.negative <;> decide

theorem exists_start (n : Number) :
    ∃ c cs, n.chars = c :: cs ∧ start c = some (.number [c], []) := by
  obtain ⟨negative, whole, fraction, exponent⟩ := n
  obtain ⟨lead, rest, numeral, -⟩ := exists_digits whole
  cases negative with
  | true => exact ⟨'-', _, rfl, rfl⟩
  | false => exact ⟨digitChar lead, _, by rw [chars, numeral]; rfl, start_digitChar lead⟩

end Number

namespace Scan

/-- The characters are written as the tokens, if what follows them begins apart. -/
def Scans (cs : List Char) (tokens : List Token) : Prop :=
  ∀ rest, Breaks rest →
    tokensFrom .between (cs ++ rest) = (tokensFrom .between rest).map (tokens ++ ·)

theorem Scans.scan {cs : List Char} {tokens : List Token} (scans : Scans cs tokens) :
    Token.scan cs = some tokens := by
  have whole := scans [] (by simp [Breaks])
  rw [List.append_nil] at whole
  exact whole.trans (by simp [tokensFrom_nil, finish])

theorem scans_number (n : Number) : Scans n.chars [.number n] := by
  intro rest breaks
  obtain ⟨c, cs, text, begins⟩ := n.exists_start
  have numeric := n.isNumeric_of_mem_chars
  have read := n.read?_chars
  rw [text] at numeric read ⊢
  have ends : finish (.number (cs.reverse ++ [c])) = some [.number n] := by
    simp [finish, read]
  rw [List.cons_append, tokensFrom_start begins,
    tokensFrom_number _ _ fun c member => numeric c (List.mem_cons_of_mem _ member),
    tokensFrom_of_breaks ends breaks]
  rfl

theorem scans_word {c : Char} {cs : List Char} {token : Token}
    (begins : start c = some (.word [c], [])) (lower : cs.all Char.isLower = true)
    (known : wordToken? (c :: cs) = some token) : Scans (c :: cs) [token] := by
  intro rest breaks
  have ends : finish (.word (cs.reverse ++ [c])) = some [token] := by simp [finish, known]
  rw [List.cons_append, tokensFrom_start begins, tokensFrom_word _ _ (List.all_eq_true.1 lower),
    tokensFrom_of_breaks ends breaks]
  rfl

theorem scans_quoted (s : String) : Scans (quoted s) [.literal (.ofText s)] :=
  fun rest _ => tokensFrom_quoted s rest

theorem Scans.space {c : Char} (blank : start c = some (.between, [])) {cs : List Char}
    {tokens : List Token} (scans : Scans cs tokens) : Scans (c :: cs) tokens := by
  intro rest breaks
  rw [List.cons_append, tokensFrom_start blank, scans rest breaks]

theorem breaks_later (parts : List (List Char)) {rest : List Char} (breaks : Breaks rest) :
    Breaks (parts.flatMap (',' :: ·) ++ rest) := by
  cases parts with
  | nil => exact breaks
  | cons part parts => exact breaks_cons (by decide) _

theorem scans_later {parts : List (List Char)} {scanned : List (List Token)}
    (each : List.Forall₂ Scans parts scanned) :
    Scans (parts.flatMap (',' :: ·)) (scanned.flatMap (.comma :: ·)) := by
  intro rest breaks
  have comma : start ',' = some (.between, [.comma]) := rfl
  induction each with
  | nil => simp
  | cons first each ih =>
    rw [List.flatMap_cons, List.cons_append, List.cons_append, tokensFrom_punctuation comma,
      List.append_assoc, first _ (breaks_later _ breaks), ih]
    simp [Function.comp_def]

theorem scans_intercalate {parts : List (List Char)} {scanned : List (List Token)}
    (each : List.Forall₂ Scans parts scanned) :
    Scans ([','].intercalate parts) ([.comma].intercalate scanned) := by
  intro rest breaks
  cases each with
  | nil => simp [List.intercalate]
  | cons first each =>
    rw [Sequence.intercalate_cons, Sequence.intercalate_cons, List.append_assoc,
      first _ (breaks_later _ breaks), scans_later each _ breaks]
    simp [Function.comp_def]

theorem scans_enclosed {opening closing : Char} {first last : Token}
    (opens : start opening = some (.between, [first]))
    (closes : start closing = some (.between, [last]))
    (apart : isNumeric closing = false ∧ closing.isLower = false)
    {parts : List (List Char)} {scanned : List (List Token)}
    (each : List.Forall₂ Scans parts scanned) :
    Scans (opening :: [','].intercalate parts ++ [closing])
      (first :: [.comma].intercalate scanned ++ [last]) := by
  intro rest _
  rw [List.cons_append, List.cons_append, tokensFrom_punctuation opens, List.append_assoc,
    List.singleton_append, scans_intercalate each _ (breaks_cons apart rest),
    tokensFrom_punctuation closes]
  simp [Function.comp_def]

theorem scans_member {name : String} {cs : List Char} {tokens : List Token}
    (value : Scans cs tokens) :
    Scans (quoted name ++ ':' :: cs) (.literal (.ofText name) :: .colon :: tokens) := by
  intro rest breaks
  have colon : start ':' = some (.between, [.colon]) := rfl
  rw [List.append_assoc, tokensFrom_quoted, List.cons_append, tokensFrom_punctuation colon,
    value rest breaks]
  simp [Function.comp_def]

end Scan

open Scan in
theorem scans_chars (j : Json) : Scans j.chars j.tokens := by
  induction j using induction with
  | null => exact scans_word rfl rfl rfl
  | bool b => cases b <;> exact scans_word rfl rfl rfl
  | number n => exact scans_number n
  | string s => exact scans_quoted s
  | array items ih =>
    rw [chars, tokens, itemChars_eq, itemTokens_eq]
    exact scans_enclosed rfl rfl (by decide) (Sequence.forall₂_map_map ih)
  | object members ih =>
    rw [chars, tokens, memberChars_eq, memberTokens_eq]
    refine scans_enclosed rfl rfl (by decide) (Sequence.forall₂_map_map ?_)
    exact fun member inside => scans_member (ih member inside)

theorem scan_chars (j : Json) : Token.scan j.chars = some j.tokens := (scans_chars j).scan

end SurveyTables.Json
