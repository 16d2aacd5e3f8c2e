import RainbowOS.Lib.Transition
import RainbowOS.Terminal.Refinement

/-!
# The newline after a full line

A character in the last column moves the cursor to the next row by itself, and a newline that
follows is then to have no effect.  The terminal remembers this in `_fullLine`.  `putchar` clears
the flag before it looks whether it can print the character, and `setCursor` does not clear it.

The calls of `putchar` and `setCursor` are the steps of a transition system whose states say,
besides the terminal, whether the last call that succeeded filled a row.  `newlinesRight_iff` gives
the runs in which the flag says the same.
-/

set_option autoImplicit false

namespace RainbowOS.FramebufferTerminal

open Transition

/-! ## Calls and what they leave -/

/-- A call of `putchar` or of `setCursor`. -/
inductive Call where
  | putchar (c : Byte)
  | setCursor (row column : Byte)
  deriving DecidableEq, Repr

/-- A character that cannot be printed. -/
def Call.Rejected : Call → Prop
  | .putchar c => c ≠ 0x0a ∧ ¬ Printable c
  | .setCursor _ _ => False

/-- A position that exists. -/
def Call.Moves : Call → Prop
  | .putchar _ => False
  | .setCursor row column => row.toNat < vga_height ∧ column.toNat < vga_width

instance (call : Call) : Decidable call.Rejected := by
  cases call <;> rw [Call.Rejected] <;> infer_instance

instance (call : Call) : Decidable call.Moves := by
  cases call <;> rw [Call.Moves] <;> infer_instance

/-- For a call that succeeds: does it print a character in column 79? -/
def Call.fillsRow (t : FramebufferTerminal) (call : Call) : Option Bool :=
  match call with
  | .putchar c =>
    if call.Rejected then none else some (c ≠ 0x0a ∧ t.column.toNat + 1 = vga_width)
  | .setCursor _ _ => if call.Moves then some false else none

/-- The memory and the terminal, and what came before. -/
structure Session where
  mem : Mem
  term : FramebufferTerminal
  /-- The last call that succeeded printed a character in column 79. -/
  filled : Bool

/-- What a call does. -/
def Session.call (s : Session) (call : Call) : Session :=
  let filled := (call.fillsRow s.term).getD s.filled
  match call with
  | .putchar c => ⟨(putchar s.mem s.term c).1.1, (putchar s.mem s.term c).1.2, filled⟩
  | .setCursor row column => ⟨s.mem, (s.term.setCursor row column).1, filled⟩

/-- The steps of the system. -/
def Session.Step (s : Session) (call : Call) (s' : Session) : Prop := s' = s.call call

/-- The run that a sequence of calls makes. -/
def Session.run (s : Session) : List Call → List (Call × Session)
  | [] => []
  | call :: calls => (call, s.call call) :: (s.call call).run calls

theorem Session.isRun (s : Session) (calls : List Call) : Run Session.Step s (s.run calls) := by
  induction calls generalizing s with
  | nil => exact .nil s
  | cons call calls ih => exact .cons rfl (ih (s.call call))

/-! ## What is expected of a newline -/

/-- Column 0 of the next row, which scrolling brings up at the bottom. -/
def nextLine (m : Mem) (t : FramebufferTerminal) : Mem × FramebufferTerminal :=
  if t.row.toNat + 1 = vga_height then ((scroll m t 1).1, { t with column := 0 })
  else (m, { t with row := t.row + 1, column := 0 })

/-- A newline in this state takes the early return of `putchar` exactly if a row has just been
filled; it then changes neither the screen nor the cursor, and otherwise goes to the next line. -/
structure Session.NewlineRight (s : Session) : Prop where
  absorbed : s.term.fullLine = true ↔ s.filled = true
  early : s.filled = true →
    (putchar s.mem s.term 0x0a).1 = (s.mem, { s.term with fullLine := false })
  next : s.filled = false → (putchar s.mem s.term 0x0a).1 = nextLine s.mem s.term

/-- A character that cannot be printed changes nothing. -/
def RejectedUnchanged (s : Session) (call : Call) : Prop :=
  call.Rejected → (s.call call).mem = s.mem ∧ (s.call call).term = s.term

/-- A newline behind this call, if that has moved the cursor, goes to the next line. -/
def NewlineAfterMove (s : Session) (call : Call) : Prop :=
  call.Moves → (putchar (s.call call).mem (s.call call).term 0x0a).1 =
    nextLine (s.call call).mem (s.call call).term

/-- Newlines are right in every state of the run, and its rejected characters change nothing. -/
structure NewlinesRight (s : Session) (tr : List (Call × Session)) : Prop where
  newline : ∀ s' ∈ states s tr, s'.NewlineRight
  rejected : Steps RejectedUnchanged s tr
  moved : Steps NewlineAfterMove s tr

/-- Behind a filled row comes neither a character that cannot be printed nor a new position. -/
def LeavesFullLine (s : Session) (call : Call) : Prop :=
  s.filled = true → ¬ call.Rejected ∧ ¬ call.Moves

variable {m : Mem} {t : FramebufferTerminal} {c : Byte} {s : Session} {call : Call}

/-! ## The flag -/

theorem not_printable_iff : c.toInt < 20 ∨ 126 < c.toInt ↔ ¬ Printable c := by
  refine ⟨fun h hc ↦ hc.in_range h, fun h ↦ ?_⟩
  rw [Printable, not_and_or] at h
  have hint := BitVec.toInt_eq_toNat_cond c
  split at hint <;> omega

theorem fullLine_putchar (m : Mem) (t : FramebufferTerminal) (hnl : c ≠ 0x0a) (hc : Printable c) :
    (putchar m t c).1.2.fullLine = decide (t.column.toNat + 1 = vga_width) := by
  by_cases hlast : t.column.toNat + 1 = vga_width
  · rw [putchar_of_last m hnl hc.in_range hlast, fullLine_incrementRow, decide_eq_true hlast]
  · rw [putchar_of_ne m hnl hc.in_range hlast, decide_eq_false hlast]

theorem setCursor_of_moves {row column : Byte} (h : (Call.setCursor row column).Moves) :
    t.setCursor row column =
      ({ t with row := row.setWidth 16, column := column.setWidth 16 }, true) := by
  obtain ⟨hrow, hcolumn⟩ := h
  rw [setCursor, if_neg]
  omega

theorem setCursor_of_not_moves {row column : Byte} (h : ¬ (Call.setCursor row column).Moves) :
    t.setCursor row column = (t, false) := by
  rw [Call.Moves] at h
  rw [setCursor, if_pos]
  omega

/-- What `putchar` returns for a call. -/
theorem putchar_rejects_iff : (putchar m t c).2 = 1 ↔ (Call.putchar c).Rejected := by
  by_cases hnl : c = 0x0a
  · subst hnl
    refine iff_of_false ?_ fun h ↦ h.1 rfl
    rw [putchar, if_pos rfl]
    split <;> exact Int.zero_ne_one
  · rw [Call.Rejected, and_iff_right hnl, ← not_printable_iff]
    by_cases hc : c.toInt < 20 ∨ 126 < c.toInt
    · rw [putchar_of_out_of_range m hnl hc]
      exact iff_of_true rfl hc
    · refine iff_of_false ?_ hc
      rw [putchar, if_neg hnl]
      dsimp only
      rw [if_neg hc]
      split <;> exact Int.zero_ne_one

theorem setCursor_succeeds_iff {row column : Byte} :
    (t.setCursor row column).2 = true ↔ (Call.setCursor row column).Moves := by
  by_cases h : (Call.setCursor row column).Moves
  · rw [setCursor_of_moves h]
    exact iff_of_true rfl h
  · rw [setCursor_of_not_moves h]
    exact iff_of_false Bool.false_ne_true h

/-! ## A newline -/

theorem incrementRow_eq (m : Mem) (t : FramebufferTerminal) :
    incrementRow m t = if t.row.toNat + 1 = vga_height then ((scroll m t 1).1, t)
      else (m, { t with row := t.row + 1 }) := by
  by_cases hlast : t.row.toNat + 1 = vga_height
  · rw [if_pos hlast, incrementRow_of_last m hlast]
    rfl
  · rw [if_neg hlast, incrementRow_of_ne m hlast]

theorem newline_of_not_full (m : Mem) (hfull : t.fullLine = false) :
    (putchar m t 0x0a).1 = nextLine m t := by
  rw [putchar_newline m hfull, incrementRow_eq, nextLine]
  rfl

/-- Newlines are right where the flag is. -/
theorem newlineRight_of_flag (h : s.term.fullLine = s.filled) : s.NewlineRight where
  absorbed := by rw [h]
  early hfilled := putchar_newline_full s.mem (h.trans hfilled)
  next hfilled := newline_of_not_full s.mem (h.trans hfilled)

/-! ## What a call does to the flag -/

theorem call_of_rejected (h : call.Rejected) :
    s.call call = { s with term := { s.term with fullLine := false } } := by
  cases call with
  | putchar c =>
    obtain ⟨hnl, hc⟩ := h
    have hrange := not_printable_iff.mpr hc
    simp only [Session.call, Call.fillsRow, if_pos (show (Call.putchar c).Rejected from ⟨hnl, hc⟩),
      putchar_of_out_of_range s.mem hnl hrange, Option.getD_none]
  | setCursor row column => exact absurd h not_false

theorem fullLine_call_of_moves (h : call.Moves) :
    (s.call call).term.fullLine = s.term.fullLine ∧ (s.call call).filled = false := by
  cases call with
  | putchar c => exact absurd h not_false
  | setCursor row column =>
    simp only [Session.call, Call.fillsRow, setCursor_of_moves h, if_pos h, Option.getD_some,
      and_self]

/-- **A call that leaves a filled row alone** keeps the flag right. -/
theorem flag_call (hflag : s.term.fullLine = s.filled) (hok : LeavesFullLine s call) :
    (s.call call).term.fullLine = (s.call call).filled := by
  by_cases hrejected : call.Rejected
  · have hfilled : s.filled = false := Bool.eq_false_iff.mpr fun h ↦ (hok h).1 hrejected
    rw [call_of_rejected hrejected, hfilled]
  · by_cases hmoves : call.Moves
    · have hfilled : s.filled = false := Bool.eq_false_iff.mpr fun h ↦ (hok h).2 hmoves
      obtain ⟨hfull, hfilled'⟩ := fullLine_call_of_moves (s := s) hmoves
      rw [hfull, hfilled', hflag, hfilled]
    · cases call with
      | putchar c =>
        simp only [Session.call, Call.fillsRow, if_neg hrejected, Option.getD_some]
        by_cases hnl : c = 0x0a
        · subst hnl
          rw [fullLine_putchar_newline]
          rfl
        · have hc : Printable c := by
            by_contra hc
            exact hrejected ⟨hnl, hc⟩
          rw [fullLine_putchar s.mem s.term hnl hc]
          simp only [ne_eq, hnl, not_false_eq_true, true_and]
      | setCursor row column =>
        simp only [Session.call, Call.fillsRow, setCursor_of_not_moves hmoves, if_neg hmoves,
          Option.getD_none]
        exact hflag

/-- A call that does not leave a filled row alone makes the flag wrong. -/
theorem not_newlineRight_call (hflag : s.term.fullLine = s.filled)
    (hbad : ¬ LeavesFullLine s call) : ¬ (s.call call).NewlineRight := by
  rw [LeavesFullLine, Classical.not_imp, not_and_or, not_not, not_not] at hbad
  obtain ⟨hfilled, hrejected | hmoves⟩ := hbad
  · intro hright
    rw [call_of_rejected hrejected] at hright
    exact Bool.false_ne_true (hright.absorbed.mpr hfilled)
  · intro hright
    obtain ⟨hfull, hfilled'⟩ := fullLine_call_of_moves (s := s) hmoves
    have habsorbed := hright.absorbed.mp (hfull.trans (hflag.trans hfilled))
    rw [hfilled'] at habsorbed
    exact Bool.false_ne_true habsorbed

theorem rejectedUnchanged_of_flag (hflag : s.term.fullLine = s.filled)
    (hok : LeavesFullLine s call) : RejectedUnchanged s call := by
  intro hrejected
  have hfilled : s.filled = false := Bool.eq_false_iff.mpr fun h ↦ (hok h).1 hrejected
  have hfull : s.term.fullLine = false := hflag.trans hfilled
  rw [call_of_rejected hrejected, ← hfull]
  exact ⟨rfl, rfl⟩

theorem newlineAfterMove_of_flag (hflag : s.term.fullLine = s.filled)
    (hok : LeavesFullLine s call) : NewlineAfterMove s call := by
  intro hmoves
  have hflag' := flag_call hflag hok
  rw [(fullLine_call_of_moves hmoves).2] at hflag'
  exact newline_of_not_full _ hflag'

/-- **When newlines are absorbed right behind filled rows only.**  For every sequence of calls on a
terminal whose flag is not set: newlines are right in every state, rejected characters change
nothing and newlines behind a new position go to the next line, exactly if no character is rejected
and no position set behind a call that has filled a row, until another call succeeds. -/
theorem newlinesRight_iff (m : Mem) {t : FramebufferTerminal} (hfull : t.fullLine = false)
    (calls : List Call) : let s : Session := ⟨m, t, false⟩
    NewlinesRight s (s.run calls) ↔ Steps LeavesFullLine s (s.run calls) := by
  intro s
  have hok : ∀ s call s', s.term.fullLine = s.filled → LeavesFullLine s call →
      Session.Step s call s' → s'.term.fullLine = s'.filled := by
    rintro s call _ hflag hok rfl
    exact flag_call hflag hok
  have hbad : ∀ s call s', s.term.fullLine = s.filled → ¬ LeavesFullLine s call →
      Session.Step s call s' → ¬ s'.NewlineRight := by
    rintro s call _ hflag hbad rfl
    exact not_newlineRight_call hflag hbad
  have hrun := s.isRun calls
  have hiff := hrun.forall_states_iff (fun _ ↦ newlineRight_of_flag) hok hbad hfull
  refine ⟨fun h ↦ hiff.mp h.newline, fun h ↦ ⟨hiff.mpr h, ?_, ?_⟩⟩
  · exact hrun.steps hok (fun _ _ ↦ rejectedUnchanged_of_flag) hfull h
  · exact hrun.steps hok (fun _ _ ↦ newlineAfterMove_of_flag) hfull h

/-- The start of the runs below. -/
def newSession : Session := ⟨fun _ ↦ 0, new, false⟩

/-- A character in the last column, a newline that is absorbed, and one that is not. -/
theorem newlinesRight_iff_wrap : NewlinesRight newSession
    (newSession.run [.setCursor 3 79, .putchar 0x41, .putchar 0x0a, .putchar 0x0a]) := by
  refine (newlinesRight_iff (fun _ ↦ 0) (t := new) rfl _).mpr ⟨?_, ?_, ?_, ?_, trivial⟩
  · exact fun h ↦ absurd h (by decide)
  · exact fun h ↦ absurd h (by decide)
  · exact fun _ ↦ by decide
  · exact fun h ↦ absurd h (by decide)

/-- **A rejected character** behind a filled row clears the flag, so the newline behind it begins
another row; **a new position** does not clear it, so the newline behind it is lost. -/
theorem newlinesRight_disturbed :
    ¬ NewlinesRight newSession
      (newSession.run [.setCursor 3 79, .putchar 0x41, .putchar 0x80]) ∧
    ¬ NewlinesRight newSession
      (newSession.run [.setCursor 3 79, .putchar 0x41, .setCursor 10 5]) := by
  constructor
  · intro h
    have hlast := h.newline ((((newSession.call (.setCursor 3 79)).call (.putchar 0x41)).call
      (.putchar 0x80))) (by simp [Session.run, states])
    exact absurd (hlast.absorbed.mpr (by decide)) (by decide)
  · intro h
    have hlast := h.newline ((((newSession.call (.setCursor 3 79)).call (.putchar 0x41)).call
      (.setCursor 10 5))) (by simp [Session.run, states])
    exact absurd (hlast.absorbed.mp (by decide)) (by decide)

end RainbowOS.FramebufferTerminal
