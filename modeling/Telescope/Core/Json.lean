import Mathlib.Data.List.Nodup
import Telescope.Core.Value
import Telescope.Foundation.Cut

namespace Telescope
namespace Json

/-!
# Quoted strings

`JSON.stringify` of a string: quotes, backslashes and control characters are escaped, and
so is a surrogate without its partner.  A string is read as a list of symbols, each a pair
of surrogates or a single unit, and the codes of the symbols are a prefix code.  Hence a
quoted string shows which string it is.
-/

/-! ## Symbols -/

def isHighSurrogate (unit : Text.CodeUnit) : Bool := decide (55296 ≤ unit.val ∧ unit.val ≤ 56319)

def isLowSurrogate (unit : Text.CodeUnit) : Bool := decide (56320 ≤ unit.val ∧ unit.val ≤ 57343)

/-- A pair of surrogates, or a unit that is in none. -/
inductive Symbol
  | pair (high low : Text.CodeUnit) (isHigh : isHighSurrogate high = true)
  | single (unit : Text.CodeUnit)

namespace Symbol

def units : Symbol -> Units
  | .pair high low _isHigh => [high, low]
  | .single unit => [unit]

end Symbol

/-- The symbols of a string. -/
def symbols : Units -> List Symbol
  | [] => []
  | [unit] => [.single unit]
  | unit :: next :: rest =>
      if isHigh : isHighSurrogate unit = true then
        if isLowSurrogate next then .pair unit next isHigh :: symbols rest
        else .single unit :: symbols (next :: rest)
      else .single unit :: symbols (next :: rest)

theorem flatMap_symbols (text : Units) : (symbols text).flatMap Symbol.units = text := by
  induction text using symbols.induct with
  | case1 => rfl
  | case2 unit => rfl
  | case3 unit next rest isHigh isLow inductionHypothesis =>
      rw [symbols, dif_pos isHigh, if_pos isLow, List.flatMap_cons, inductionHypothesis]
      rfl
  | case4 unit next rest isHigh notLow inductionHypothesis =>
      rw [symbols, dif_pos isHigh, if_neg notLow, List.flatMap_cons, inductionHypothesis]
      rfl
  | case5 unit next rest notHigh inductionHypothesis =>
      rw [symbols, dif_neg notHigh, List.flatMap_cons, inductionHypothesis]
      rfl

theorem symbols_inj {left right : Units} (same : symbols left = symbols right) : left = right := by
  rw [<- flatMap_symbols left, same, flatMap_symbols]

/-! ## Escapes -/

def BACKSLASH : Text.CodeUnit := 92

def QUOTE : Text.CodeUnit := 34

/-- A hexadecimal digit in lower case. -/
def hexDigit (digit : Nat) : Text.CodeUnit :=
  if digit < 10 then Fin.ofNat 65536 (48 + digit) else Fin.ofNat 65536 (87 + digit)

def hexFour (unit : Text.CodeUnit) : Units :=
  [hexDigit (unit.val / 4096), hexDigit (unit.val / 256 % 16), hexDigit (unit.val / 16 % 16), hexDigit (unit.val % 16)]

/-- The units that have a short escape, with its letter. -/
def SHORT_ESCAPES : List (Text.CodeUnit × Text.CodeUnit) :=
  [(8, 98), (9, 116), (10, 110), (12, 102), (13, 114), (QUOTE, QUOTE), (BACKSLASH, BACKSLASH)]

def shortEscape (unit : Text.CodeUnit) : Option Text.CodeUnit :=
  (SHORT_ESCAPES.find? fun escape => decide (escape.1 = unit)).map Prod.snd

/-- What one symbol is written as. -/
def escape : Symbol -> Units
  | .pair high low _isHigh => [high, low]
  | .single unit =>
      match shortEscape unit with
      | some letter => [BACKSLASH, letter]
      | none =>
          if unit.val < 32 ∨ isHighSurrogate unit = true ∨ isLowSurrogate unit = true then
            BACKSLASH :: 117 :: hexFour unit
          else [unit]

/-- `JSON.stringify(text)`. -/
def quote (text : Units) : Units := QUOTE :: (symbols text).flatMap escape ++ [QUOTE]

example : quote (units "a\"\n") = units "\"a\\\"\\n\"" := by decide +kernel

/-! ## Reading back -/

theorem hexDigit_inj {left right : Nat} (leftSmall : left < 16) (rightSmall : right < 16)
    (same : hexDigit left = hexDigit right) : left = right := by
  unfold hexDigit at same
  split at same <;> split at same <;> simp only [Fin.ext_iff, Fin.val_ofNat] at same <;> omega

theorem hexFour_inj {left right : Text.CodeUnit} (same : hexFour left = hexFour right) : left = right := by
  rw [hexFour, hexFour, List.cons.injEq, List.cons.injEq, List.cons.injEq, List.cons.injEq] at same
  rcases same with ⟨first, second, third, fourth, _⟩
  have leftSmall := left.isLt
  have rightSmall := right.isLt
  have firsts := hexDigit_inj (by omega) (by omega) first
  have seconds := hexDigit_inj (by omega) (by omega) second
  have thirds := hexDigit_inj (by omega) (by omega) third
  have fourths := hexDigit_inj (by omega) (by omega) fourth
  apply Fin.ext
  omega

theorem mem_of_shortEscape {unit letter : Text.CodeUnit} (short : shortEscape unit = some letter) :
    (unit, letter) ∈ SHORT_ESCAPES := by
  rcases Option.map_eq_some_iff.mp short with ⟨escape, found, isLetter⟩
  have holds := List.find?_some found
  have isUnit : escape.1 = unit := of_decide_eq_true holds
  have member := List.mem_of_find?_eq_some found
  rw [<- isUnit, <- isLetter]
  exact member

theorem shortEscape_inj {left right letter : Text.CodeUnit} (isLeft : shortEscape left = some letter)
    (isRight : shortEscape right = some letter) : left = right := by
  have distinct : (SHORT_ESCAPES.map Prod.snd).Nodup := by decide
  have same := List.inj_on_of_nodup_map distinct (mem_of_shortEscape isLeft) (mem_of_shortEscape isRight) rfl
  exact congrArg Prod.fst same

theorem shortEscape_ne {unit letter : Text.CodeUnit} (short : shortEscape unit = some letter) : letter ≠ 117 := by
  have absent : 117 ∉ SHORT_ESCAPES.map Prod.snd := by decide
  exact fun same => absent (same ▸ List.mem_map_of_mem (f := Prod.snd) (mem_of_shortEscape short))

/-- The ways in which a symbol is written. -/
inductive Written : Symbol -> Units -> Prop
  | pair (high low : Text.CodeUnit) (isHigh : isHighSurrogate high = true) :
      Written (.pair high low isHigh) [high, low]
  | short {unit letter : Text.CodeUnit} (isShort : shortEscape unit = some letter) :
      Written (.single unit) [BACKSLASH, letter]
  | long (unit : Text.CodeUnit) : Written (.single unit) (BACKSLASH :: 117 :: hexFour unit)
  | plain {unit : Text.CodeUnit} (noQuote : unit ≠ QUOTE) (noEscape : unit ≠ BACKSLASH)
      (noSurrogate : isHighSurrogate unit ≠ true) : Written (.single unit) [unit]

theorem written_escape (symbol : Symbol) : Written symbol (escape symbol) := by
  cases symbol with
  | pair high low isHigh => exact .pair high low isHigh
  | single unit =>
      rw [escape]
      cases short : shortEscape unit with
      | some letter => exact .short short
      | none =>
          dsimp only
          split
          · exact .long unit
          · rename_i plain
            refine .plain (fun isQuote => ?_) (fun isBackslash => ?_) fun isHigh => plain (.inr (.inl isHigh))
            · rw [isQuote] at short
              cases short
            · rw [isBackslash] at short
              cases short

theorem high_ne_backslash {unit : Text.CodeUnit} (isHigh : isHighSurrogate unit = true) : unit ≠ BACKSLASH := by
  rintro rfl
  cases isHigh

theorem high_ne_quote {unit : Text.CodeUnit} (isHigh : isHighSurrogate unit = true) : unit ≠ QUOTE := by
  rintro rfl
  cases isHigh

/-- The beginning of a text shows its first symbol. -/
theorem Written.separates {first second : Symbol} {left right rest more : Units} (isFirst : Written first left)
    (isSecond : Written second right) (same : left ++ rest = right ++ more) : first = second := by
  cases isFirst with
  | pair high low isHigh =>
      cases isSecond with
      | pair other next _ =>
          injection same with highs tails
          injection tails with lows _
          subst highs lows
          rfl
      | short _ => exact (high_ne_backslash isHigh (List.cons.inj same).1).elim
      | long _ => exact (high_ne_backslash isHigh (List.cons.inj same).1).elim
      | plain _ _ noSurrogate => exact (noSurrogate ((List.cons.inj same).1 ▸ isHigh)).elim
  | short isShort =>
      cases isSecond with
      | pair _ _ isHigh => exact (high_ne_backslash isHigh (List.cons.inj same).1.symm).elim
      | short other =>
          have letters := (List.cons.inj (List.cons.inj same).2).1
          rw [<- letters] at other
          rw [shortEscape_inj isShort other]
      | long _ => exact (shortEscape_ne isShort (List.cons.inj (List.cons.inj same).2).1).elim
      | plain _ noEscape _ => exact (noEscape (List.cons.inj same).1.symm).elim
  | long unit =>
      cases isSecond with
      | pair _ _ isHigh => exact (high_ne_backslash isHigh (List.cons.inj same).1.symm).elim
      | short other => exact (shortEscape_ne other (List.cons.inj (List.cons.inj same).2).1.symm).elim
      | long other =>
          have digits := (List.append_inj (List.cons.inj (List.cons.inj same).2).2 rfl).1
          rw [hexFour_inj digits]
      | plain _ noEscape _ => exact (noEscape (List.cons.inj same).1.symm).elim
  | plain _ noEscape noSurrogate =>
      cases isSecond with
      | pair _ _ isHigh => exact (noSurrogate ((List.cons.inj same).1 ▸ isHigh)).elim
      | short _ => exact (noEscape (List.cons.inj same).1).elim
      | long _ => exact (noEscape (List.cons.inj same).1).elim
      | plain _ _ _ => rw [(List.cons.inj same).1]

theorem Written.continues {symbol : Symbol} {text rest more : Units} (written : Written symbol text) :
    text ++ rest ≠ QUOTE :: more := by
  intro same
  cases written with
  | pair _ _ isHigh => exact high_ne_quote isHigh (List.cons.inj same).1
  | short _ => cases (List.cons.inj same).1
  | long _ => cases (List.cons.inj same).1
  | plain noQuote _ _ => exact noQuote (List.cons.inj same).1

theorem prefixCode_escape : PrefixCode escape QUOTE where
  separates := Written.separates (written_escape _) (written_escape _)
  continues := Written.continues (written_escape _)

/-- A quoted string at the beginning of a text shows which string it is. -/
theorem quote_append_inj {left right rest more : Units} (same : quote left ++ rest = quote right ++ more) :
    left = right ∧ rest = more := by
  rw [quote, quote, List.append_assoc, List.append_assoc] at same
  rcases prefixCode_escape.flatMap_stop_inj (List.cons.inj same).2 with ⟨sameSymbols, rests⟩
  exact ⟨symbols_inj sameSymbols, rests⟩

end Json
end Telescope
