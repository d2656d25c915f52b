/-!
# Sets of characters as ranges of code points

A set is a list of inclusive ranges in ascending order, which is how a standard lists the
characters of a property. Membership stops at the first range past the character, so it goes by the
order: in a list out of order a range may be missed.

* `CharSet.Lists`: a code point lies in one of the ranges.
* **`CharSet.has_iff`**: in a sorted list, the members are the characters that are listed.
-/

namespace LoxTokenizer.Text

/-- Inclusive ranges of code points, in ascending order. -/
abbrev CharSet := List (Nat × Nat)

namespace CharSet

/-- Whether a code point lies in one of the ranges. -/
def hasCode : CharSet → Nat → Bool
  | [], _ => false
  | (first, last) :: rest, code =>
    if code < first then false else code ≤ last || hasCode rest code

/-- Whether a character is a member. -/
def has (set : CharSet) (c : Char) : Bool :=
  hasCode set c.toNat

/-! ## Order -/

/-- Whether the ranges start at a code point or later, each in order and behind the one before. -/
def ascendsFrom (low : Nat) : CharSet → Bool
  | [] => true
  | (first, last) :: rest => low ≤ first && first ≤ last && ascendsFrom (last + 1) rest

/-- Each range is in order and ends before the next one starts. -/
def Sorted (set : CharSet) : Prop :=
  ascendsFrom 0 set = true

instance : DecidablePred Sorted := fun set => inferInstanceAs (Decidable (ascendsFrom 0 set = true))

/-- A code point lies in one of the ranges. -/
def Lists (set : CharSet) (code : Nat) : Prop :=
  ∃ range ∈ set, range.1 ≤ code ∧ code ≤ range.2

variable {set rest : CharSet} {first last low code : Nat} {c : Char}

theorem lists_cons :
    Lists ((first, last) :: rest) code ↔ (first ≤ code ∧ code ≤ last) ∨ Lists rest code := by
  simp [Lists]

theorem ascendsFrom_cons : ascendsFrom low ((first, last) :: rest) = true ↔
    low ≤ first ∧ first ≤ last ∧ ascendsFrom (last + 1) rest = true := by
  simp [ascendsFrom, and_assoc]

/-- Nothing is listed before the first range. -/
theorem le_of_lists (h : ascendsFrom low set = true) (hlists : Lists set code) : low ≤ code := by
  induction set generalizing low with
  | nil => simp [Lists] at hlists
  | cons range rest ih =>
    obtain ⟨hlow, horder, hrest⟩ := ascendsFrom_cons.1 h
    rcases lists_cons.1 hlists with ⟨hfirst, -⟩ | hlists
    · exact Nat.le_trans hlow hfirst
    · have := ih hrest hlists
      omega

theorem hasCode_iff (h : ascendsFrom low set = true) :
    hasCode set code = true ↔ Lists set code := by
  induction set generalizing low with
  | nil => simp [hasCode, Lists]
  | cons range rest ih =>
    obtain ⟨-, horder, hrest⟩ := ascendsFrom_cons.1 h
    rw [lists_cons]
    by_cases hbefore : code < range.1
    · -- the search stops here, and the ranges behind start later still
      have hnone : ¬ Lists rest code := fun hlists => by
        have := le_of_lists hrest hlists
        omega
      simp [hasCode, hbefore, hnone, Nat.not_le.2 hbefore]
    · simp [hasCode, hbefore, ih hrest, Nat.not_lt.1 hbefore]

/-- **The members of a sorted list** are the characters that are listed. -/
theorem has_iff (h : Sorted set) : set.has c = true ↔ set.Lists c.toNat :=
  hasCode_iff h

end CharSet

end LoxTokenizer.Text
