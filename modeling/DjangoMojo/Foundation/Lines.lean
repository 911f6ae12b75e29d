import Mathlib.Data.List.Basic

/-! # Lines of bytes

A log is a sequence of bytes that newlines end lines of; what follows the last newline
is a line that is not complete yet. `splitlines` also breaks at carriage returns and
returns the unfinished line.
-/

namespace DjangoMojo.Foundation

abbrev Bytes := List UInt8

def newline : UInt8 := 10
def carriageReturn : UInt8 := 13

/-- Put a byte before the first line, which it begins when there is none. -/
def consLine (byte : UInt8) : List Bytes → List Bytes
  | [] => [[byte]]
  | line :: rest => (byte :: line) :: rest

/-- `bytes.splitlines`. -/
def splitLines : Bytes → List Bytes
  | [] => []
  | 13 :: 10 :: rest => [] :: splitLines rest
  | byte :: rest =>
    if byte = newline ∨ byte = carriageReturn then [] :: splitLines rest
    else consLine byte (splitLines rest)

def completeLines : Bytes → List Bytes
  | [] => []
  | byte :: rest =>
    if byte = newline then [] :: completeLines rest
    else
      match completeLines rest with
      | [] => []
      | line :: lines => (byte :: line) :: lines

def Terminated (text : Bytes) : Prop := text = [] ∨ ∃ front, text = front ++ [newline]

instance (text : Bytes) : Decidable (Terminated text) :=
  decidable_of_iff (text = [] ∨ text.getLast? = some newline)
    (or_congr_right List.getLast?_eq_some_iff)

/-- The length of the text up to its last newline, as `rfind` finds it. -/
def completeLength (text : Bytes) : Nat :=
  text.length - (text.reverse.takeWhile (· ≠ newline)).length

variable {text first second : Bytes}

theorem Terminated.tail {byte : UInt8} (hterminated : Terminated (byte :: text)) :
    text = [] ∧ byte = newline ∨ text ≠ [] ∧ Terminated text := by
  rcases hterminated with hempty | ⟨front, hfront⟩
  · cases hempty
  · cases front with
    | nil =>
      rw [List.nil_append, List.cons.injEq] at hfront
      exact .inl ⟨hfront.2, hfront.1⟩
    | cons head rest =>
      rw [List.cons_append, List.cons.injEq] at hfront
      refine .inr ⟨?_, .inr ⟨rest, hfront.2⟩⟩
      rw [hfront.2]
      exact List.append_ne_nil_of_right_ne_nil _ (List.cons_ne_nil _ _)

theorem Terminated.append (hfirst : Terminated first) (hsecond : Terminated second) :
    Terminated (first ++ second) := by
  rcases hsecond with rfl | ⟨front, rfl⟩
  · rw [List.append_nil]
    exact hfirst
  · exact .inr ⟨first ++ front, (List.append_assoc _ _ _).symm⟩

theorem exists_complete (text : Bytes) :
    ∃ complete unfinished, text = complete ++ unfinished ∧ Terminated complete ∧
      newline ∉ unfinished := by
  induction text with
  | nil => exact ⟨[], [], rfl, .inl rfl, List.not_mem_nil⟩
  | cons byte rest ih =>
    obtain ⟨complete, unfinished, rfl, hcomplete, hunfinished⟩ := ih
    rcases hcomplete with rfl | ⟨front, rfl⟩
    · by_cases hbyte : byte = newline
      · exact ⟨[byte], unfinished, rfl, .inr ⟨[], by rw [hbyte]; rfl⟩, hunfinished⟩
      · refine ⟨[], byte :: unfinished, rfl, .inl rfl, ?_⟩
        rw [List.mem_cons, not_or]
        exact ⟨fun heq => hbyte heq.symm, hunfinished⟩
    · exact ⟨byte :: (front ++ [newline]), unfinished, rfl, .inr ⟨byte :: front, rfl⟩,
        hunfinished⟩

theorem completeLength_append (hfirst : Terminated first) (hsecond : newline ∉ second) :
    completeLength (first ++ second) = first.length := by
  have hall : ∀ byte ∈ second.reverse, decide (byte ≠ newline) = true := by
    intro byte hbyte
    rw [decide_eq_true_eq]
    rintro rfl
    exact hsecond (List.mem_reverse.mp hbyte)
  rw [completeLength, List.reverse_append, List.takeWhile_append_of_pos hall]
  rcases hfirst with rfl | ⟨front, rfl⟩
  · simp
  · simp only [List.reverse_append, List.reverse_singleton, List.singleton_append,
      List.takeWhile_cons, ne_eq, not_true, decide_false, Bool.false_eq_true, if_false,
      List.append_nil, List.length_append, List.length_reverse, List.length_singleton]
    omega

/-! ### Lines of a terminated text and of what follows it -/

theorem completeLines_of_not_mem (hnone : newline ∉ text) : completeLines text = [] := by
  induction text with
  | nil => rfl
  | cons byte rest ih =>
    rw [List.mem_cons, not_or] at hnone
    rw [completeLines, if_neg (Ne.symm hnone.1), ih hnone.2]

theorem completeLines_ne_nil (hterminated : Terminated text) (hnonempty : text ≠ []) :
    completeLines text ≠ [] := by
  induction text with
  | nil => exact absurd rfl hnonempty
  | cons byte rest ih =>
    rw [completeLines]
    split
    · exact List.cons_ne_nil _ _
    next hbyte =>
      rcases hterminated.tail with ⟨_, hnewline⟩ | ⟨hrest, hrestTerminated⟩
      · exact absurd hnewline hbyte
      · split
        next hnone => exact absurd hnone (ih hrestTerminated hrest)
        · exact List.cons_ne_nil _ _

theorem completeLines_concat (hnone : newline ∉ text) :
    completeLines (text ++ [newline]) = [text] := by
  induction text with
  | nil => rfl
  | cons byte rest ih =>
    rw [List.mem_cons, not_or] at hnone
    rw [List.cons_append, completeLines, if_neg (Ne.symm hnone.1), ih hnone.2]

theorem completeLines_append (hfirst : Terminated first) :
    completeLines (first ++ second) = completeLines first ++ completeLines second := by
  induction first with
  | nil => rfl
  | cons byte rest ih =>
    rw [List.cons_append, completeLines, completeLines]
    rcases hfirst.tail with ⟨rfl, rfl⟩ | ⟨hrest, hrestTerminated⟩
    · rfl
    · rw [ih hrestTerminated]
      split
      · rfl
      · cases hlines : completeLines rest with
        | nil => exact absurd hlines (completeLines_ne_nil hrestTerminated hrest)
        | cons line lines => rfl

theorem splitLines_cons {byte : UInt8} (hbyte : byte ≠ carriageReturn) (rest : Bytes) :
    splitLines (byte :: rest) =
      if byte = newline then [] :: splitLines rest else consLine byte (splitLines rest) := by
  rw [splitLines.eq_3]
  · simp only [hbyte, or_false]
  · rintro _ rfl
    exact absurd rfl hbyte

theorem splitLines_append (hfirst : Terminated first) (hreturns : carriageReturn ∉ first) :
    splitLines (first ++ second) = completeLines first ++ splitLines second := by
  induction first with
  | nil => rfl
  | cons byte rest ih =>
    rw [List.mem_cons, not_or] at hreturns
    rw [List.cons_append, splitLines_cons (Ne.symm hreturns.1), completeLines]
    rcases hfirst.tail with ⟨rfl, rfl⟩ | ⟨hrest, hrestTerminated⟩
    · rfl
    · rw [ih hrestTerminated hreturns.2]
      split
      · rfl
      · cases hlines : completeLines rest with
        | nil => exact absurd hlines (completeLines_ne_nil hrestTerminated hrest)
        | cons line lines => rfl

theorem splitLines_of_not_mem (hnone : newline ∉ text) (hreturns : carriageReturn ∉ text)
    (hnonempty : text ≠ []) : splitLines text = [text] := by
  induction text with
  | nil => exact absurd rfl hnonempty
  | cons byte rest ih =>
    rw [List.mem_cons, not_or] at hnone hreturns
    rw [splitLines_cons (Ne.symm hreturns.1), if_neg (Ne.symm hnone.1)]
    cases rest with
    | nil => rfl
    | cons next others => rw [ih hnone.2 hreturns.2 (List.cons_ne_nil _ _), consLine]

end DjangoMojo.Foundation
