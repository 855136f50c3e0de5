/-!
# Loops round by round

A loop is a function that makes one round of it, or makes none when the loop is over.  To say that a loop
ends is to say after how many rounds, and in which state (`EndsAfter`).  Since a round is a function, there is
no other way for the loop to go.
-/

namespace ChangeImpact

variable {σ : Type} {next? : σ → Option σ}

/-- A loop comes from one state to another in a number of rounds. -/
inductive Rounds (next? : σ → Option σ) : Nat → σ → σ → Prop where
  | none (state : σ) : Rounds next? 0 state state
  | more {count : Nat} {start state last : σ} (first : next? start = some state)
      (rest : Rounds next? count state last) : Rounds next? (count + 1) start last

/-- A loop that is begun in a state is over after a number of rounds. -/
structure EndsAfter (next? : σ → Option σ) (count : Nat) (start last : σ) : Prop where
  rounds : Rounds next? count start last
  ended : next? last = none

theorem Rounds.single {start state : σ} (h : next? start = some state) : Rounds next? 1 start state :=
  .more h (.none state)

theorem Rounds.trans {first second : Nat} {start state last : σ} (h : Rounds next? first start state)
    (hnext : Rounds next? second state last) : Rounds next? (first + second) start last := by
  induction h with
  | none => rwa [Nat.zero_add]
  | more hround _ ih =>
      rw [Nat.add_right_comm]
      exact .more hround (ih hnext)

end ChangeImpact
