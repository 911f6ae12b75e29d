import Mathlib.Data.List.Basic

/-! # Numbers in text, as Python reads them

`int` skips white space around a number, takes a sign and accepts the decimal
digits of every script, with single underscores between digits.
-/

namespace DjangoMojo.Foundation

/-- The Unicode tables behind `int`: the white space and the value of each
decimal digit. -/
structure TextTables where
  isSpace : Char → Bool
  decimal : Char → Option Nat

namespace TextTables

def ascii : TextTables where
  isSpace char := char ∈ [' ', '\t', '\n', '\x0b', '\x0c', '\r']
  decimal char := if char.isDigit then some (char.toNat - '0'.toNat) else none

variable (tables : TextTables)

/-- Read digits onto the number so far; an underscore must follow a digit and a
digit must come last. -/
def digits (number : Nat) (afterDigit : Bool) : List Char → Option Nat
  | [] => if afterDigit then some number else none
  | char :: rest =>
    match tables.decimal char with
    | some value => digits (10 * number + value) true rest
    | none => if char = '_' && afterDigit then digits number false rest else none

def strip (text : List Char) : List Char :=
  ((text.dropWhile tables.isSpace).reverse.dropWhile tables.isSpace).reverse

/-- `int(text)`, or `none` for its `ValueError`. -/
def int (text : List Char) : Option Int :=
  match tables.strip text with
  | '-' :: rest => (tables.digits 0 false rest).map fun number => -(number : Int)
  | '+' :: rest => (tables.digits 0 false rest).map fun number => (number : Int)
  | rest => (tables.digits 0 false rest).map fun number => (number : Int)

example : ascii.int " 9".toList = some 9 := by decide

example : ascii.int "1_".toList = none := by decide

end TextTables

/-! ## Text that was decoded from arbitrary bytes

A file name is decoded with `surrogateescape`: a byte that is no part of valid
UTF-8 becomes a lone surrogate. Such a text cannot be encoded again as UTF-8
unless each lone surrogate is replaced.
-/

inductive RawChar where
  | char (value : Char)
  | surrogate (code : Fin 2048)
  deriving DecidableEq

abbrev RawText := List RawChar

namespace RawText

def ofString (text : String) : RawText := text.toList.map .char

def codes (text : RawText) : List Nat :=
  text.map fun char =>
    match char with
    | .char value => value.toNat
    | .surrogate code => 0xD800 + code

/-- The text itself, when it holds no lone surrogate: what `encode("utf-8")` accepts. -/
def encoded : RawText → Option (List Char)
  | [] => some []
  | .char value :: rest => (encoded rest).map (value :: ·)
  | .surrogate _ :: _ => none

/-- The character that `errors="replace"` writes for a lone surrogate. -/
def replaced : RawChar → Char
  | .char value => value
  | .surrogate _ => '?'

/-- `safe_text`: no NUL characters, and no lone surrogates. -/
def safeText (text : RawText) : String :=
  String.ofList ((text.filter fun char => char ≠ .char '\x00').map replaced)

end RawText

end DjangoMojo.Foundation
