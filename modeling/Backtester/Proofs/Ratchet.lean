import Backtester.Proofs.Rows
import Mathlib.Data.EReal.Basic

/-!
# The ratchet of a stop

A stop that trails only ever moves towards the price.  What reaches the stop of a position reaches
the moved stop as well, so of two positions that differ in their stop alone the one with the moved
stop is closed first.

* `OrderedScalar` — scalars whose order is one on the values that are numbers.
* `Direction.Tighter` — one stop is at least as near to the price as another.
* `Position.TightenedTo` — a position with its stop moved towards the price and nothing else changed.
* `Position.tightenedTo_held` — this is what a row does to a position that stays open.
* `Position.TightenedTo.closing?_eq_none` — a row that leaves the tightened position open leaves the
  other one open.
* `Position.Ratcheted` — a position is what its opening has been tightened to, which every row
  preserves.
-/

namespace Backtester

/-- Scalars whose order is one on the values that are numbers, and holds of no other value. -/
class OrderedScalar (α : Type) [Scalar α] : Prop where
  /-- A number is at most itself. -/
  le_refl : ∀ {a : α}, Scalar.isNaN a = false → a ≤ a
  /-- The order is transitive. -/
  le_trans : ∀ {a b c : α}, a ≤ b → b ≤ c → a ≤ c
  /-- The strict order is part of it. -/
  le_of_lt : ∀ {a b : α}, a < b → a ≤ b
  /-- Only numbers compare. -/
  isNaN_of_le : ∀ {a b : α}, a ≤ b → Scalar.isNaN a = false ∧ Scalar.isNaN b = false

variable {α : Type} [Scalar α]

/-- Scalars that are compared by their places on the extended number line are ordered. -/
theorem OrderedScalar.of_place (place : α → EReal)
    (hle : ∀ a b : α, a ≤ b ↔
      Scalar.isNaN a = false ∧ Scalar.isNaN b = false ∧ place a ≤ place b)
    (hlt : ∀ a b : α, a < b → a ≤ b) : OrderedScalar α where
  le_refl := fun ha => (hle _ _).mpr ⟨ha, ha, le_rfl⟩
  le_trans := fun hab hbc => by
    obtain ⟨ha, -, hab⟩ := (hle _ _).mp hab
    obtain ⟨-, hc, hbc⟩ := (hle _ _).mp hbc
    exact (hle _ _).mpr ⟨ha, hc, hab.trans hbc⟩
  le_of_lt := fun h => hlt _ _ h
  isNaN_of_le := fun h => ((hle _ _).mp h).imp_right And.left

section

variable [OrderedScalar α] {a : α}

theorem le_larger (ha : Scalar.isNaN a = false) (b : α) : a ≤ Scalar.larger a b := by
  rw [Scalar.larger, ha, if_neg Bool.false_ne_true]
  split
  · next hlt => exact OrderedScalar.le_of_lt hlt
  · exact OrderedScalar.le_refl ha

theorem smaller_le (ha : Scalar.isNaN a = false) (b : α) : Scalar.smaller a b ≤ a := by
  rw [Scalar.smaller, ha, if_neg Bool.false_ne_true]
  split
  · next hlt => exact OrderedScalar.le_of_lt hlt
  · exact OrderedScalar.le_refl ha

end

/-! ## One stop and another -/

/-- The stop `b` is at least as near to the price as `a`: not below it for a long position, not
above it for a short one. -/
def Direction.Tighter : Direction → α → α → Prop
  | .long, a, b => a ≤ b
  | .short, a, b => b ≤ a

section

variable [OrderedScalar α] {direction : Direction} {a b c : α}

theorem Direction.Tighter.refl (direction : Direction) (ha : Scalar.isNaN a = false) :
    direction.Tighter a a := by
  cases direction with
  | long => exact OrderedScalar.le_refl ha
  | short => exact OrderedScalar.le_refl ha

theorem Direction.Tighter.trans (hab : direction.Tighter a b) (hbc : direction.Tighter b c) :
    direction.Tighter a c := by
  cases direction with
  | long => exact OrderedScalar.le_trans hab hbc
  | short => exact OrderedScalar.le_trans hbc hab

theorem Direction.Tighter.isNaN (h : direction.Tighter a b) : Scalar.isNaN b = false := by
  cases direction with
  | long => exact (OrderedScalar.isNaN_of_le h).2
  | short => exact (OrderedScalar.isNaN_of_le h).1

end

/-! ## Positions with their stop moved -/

/-- A row leaves a position open where none of the three exits applies. -/
theorem closing?_eq_none_iff {p : Position α} {row : Row α} :
    closing? p row = none ↔
      p.hitsStop row.candle.low row.candle.high = false ∧
        p.hitsTarget row.candle.low row.candle.high = false ∧ row.exit = false := by
  constructor
  · intro hopen
    unfold closing? at hopen
    split at hopen
    · next hstop => simp [Position.hitsStop, Option.map_eq_none_iff.mp hopen] at hstop
    · next hstop =>
        split at hopen
        · next htarget => simp [Position.hitsTarget, Option.map_eq_none_iff.mp hopen] at htarget
        · next htarget =>
            split at hopen
            · cases hopen
            · next hexit => exact ⟨by simpa using hstop, by simpa using htarget, by simpa using hexit⟩
  · rintro ⟨hstop, htarget, hexit⟩
    simp [closing?, hstop, htarget, hexit]

namespace Position

/-- The stop of a position is a number, if it has one. -/
def StopIsNumber (p : Position α) : Prop := ∀ stop ∈ p.stop, Scalar.isNaN stop = false

/-- A position with its stop moved towards the price and nothing else changed. -/
inductive TightenedTo (p : Position α) : Position α → Prop
  | unstopped (hstop : p.stop = none) : TightenedTo p p
  | stopped {a b : α} (hstop : p.stop = some a) (htighter : p.direction.Tighter a b) :
      TightenedTo p { p with stop := some b }

variable {p q r : Position α} {row : Row α} {risk : Risk α}

theorem TightenedTo.entry_eq (h : p.TightenedTo q) :
    q.entryTime = p.entryTime ∧ q.entryPrice = p.entryPrice := by
  cases h with
  | unstopped => exact ⟨rfl, rfl⟩
  | stopped => exact ⟨rfl, rfl⟩

theorem TightenedTo.direction_eq (h : p.TightenedTo q) : q.direction = p.direction := by
  cases h with
  | unstopped => rfl
  | stopped => rfl

theorem TightenedTo.target_eq (h : p.TightenedTo q) : q.target = p.target := by
  cases h with
  | unstopped => rfl
  | stopped => rfl

theorem TightenedTo.exists_stop (h : p.TightenedTo q) {b : α} (hstop : q.stop = some b) :
    ∃ a, p.stop = some a ∧ p.direction.Tighter a b := by
  cases h with
  | unstopped hnone => cases hnone.symm.trans hstop
  | stopped hp htighter =>
      obtain rfl := Option.some.inj hstop
      exact ⟨_, hp, htighter⟩

theorem TightenedTo.hitsTarget (h : p.TightenedTo q) (low high : α) :
    q.hitsTarget low high = p.hitsTarget low high := by
  unfold Position.hitsTarget
  rw [h.target_eq, h.direction_eq]

variable [OrderedScalar α]

theorem TightenedTo.refl (h : p.StopIsNumber) : p.TightenedTo p := by
  cases hstop : p.stop with
  | none => exact .unstopped hstop
  | some stop =>
      have hkept : p.TightenedTo { p with stop := some stop } :=
        .stopped hstop (.refl p.direction (h stop hstop))
      rwa [← hstop] at hkept

theorem TightenedTo.trans (hpq : p.TightenedTo q) (hqr : q.TightenedTo r) : p.TightenedTo r := by
  cases hpq with
  | unstopped => exact hqr
  | stopped hp hab =>
      cases hqr with
      | unstopped hq => cases hq
      | stopped hq hbc =>
          obtain rfl := Option.some.inj hq
          exact .stopped hp (hab.trans hbc)

theorem TightenedTo.stopIsNumber (h : p.TightenedTo q) : q.StopIsNumber := by
  intro stop hmem
  cases h with
  | unstopped hstop =>
      rw [hstop] at hmem
      cases hmem
  | stopped _ htighter =>
      obtain rfl := Option.some.inj hmem
      exact htighter.isNaN

/-! ## What a row does -/

theorem tightenedTo_trail (h : p.StopIsNumber) (low high fraction : α) :
    p.TightenedTo (p.trail low high fraction) := by
  cases hstop : p.stop with
  | none =>
      have hsame : p.trail low high fraction = p := by
        rw [trail, hstop, Option.map_none, ← hstop]
      rw [hsame]
      exact .unstopped hstop
  | some stop =>
      rw [trail, hstop, Option.map_some]
      refine .stopped hstop ?_
      cases p.direction with
      | long => exact le_larger (h stop hstop) _
      | short => exact smaller_le (h stop hstop) _

/-- A row on which a position stays open moves its stop towards the price, if at all. -/
theorem tightenedTo_held (h : p.StopIsNumber) (risk : Risk α) (row : Row α) :
    p.TightenedTo (held risk p row) := by
  unfold held
  split
  · exact tightenedTo_trail h _ _ _
  · exact .refl h

theorem TightenedTo.hitsStop (h : p.TightenedTo q) {low high : α}
    (hstop : p.hitsStop low high = true) : q.hitsStop low high = true := by
  cases h with
  | unstopped => exact hstop
  | stopped hp htighter =>
      unfold Position.hitsStop at hstop ⊢
      rw [hp] at hstop
      dsimp only at hstop ⊢
      cases hdirection : p.direction with
      | long =>
          rw [hdirection] at hstop htighter
          exact decide_eq_true (OrderedScalar.le_trans (of_decide_eq_true hstop) htighter)
      | short =>
          rw [hdirection] at hstop htighter
          exact decide_eq_true (OrderedScalar.le_trans htighter (of_decide_eq_true hstop))

/-- A row that leaves the tightened position open leaves the other one open. -/
theorem TightenedTo.closing?_eq_none (h : p.TightenedTo q) (hopen : closing? q row = none) :
    closing? p row = none := by
  rw [closing?_eq_none_iff] at hopen ⊢
  obtain ⟨hstop, htarget, hexit⟩ := hopen
  refine ⟨?_, ?_, hexit⟩
  · rw [← Bool.not_eq_true] at hstop ⊢
    exact mt h.hitsStop hstop
  · rwa [h.hitsTarget] at htarget

end Position

/-! ## From the opening on -/

/-- The position opened at a time and price. -/
def Risk.opening (risk : Risk α) (time : Int) (price : α) : Position α :=
  Position.opened time price risk.direction risk.stopLoss risk.takeProfit

/-- A position is what its opening has been tightened to. -/
def Position.Ratcheted (risk : Risk α) (p : Position α) : Prop :=
  (risk.opening p.entryTime p.entryPrice).TightenedTo p

section

variable [OrderedScalar α] {risk : Risk α} {p : Position α}

theorem Position.ratcheted_opening {time : Int} {price : α}
    (h : (risk.opening time price).StopIsNumber) :
    (risk.opening time price).Ratcheted risk :=
  .refl h

/-- A ratcheted position that is tightened is ratcheted still. -/
theorem Position.Ratcheted.trans {q : Position α} (h : p.Ratcheted risk) (hpq : p.TightenedTo q) :
    q.Ratcheted risk := by
  rw [Position.Ratcheted, hpq.entry_eq.1, hpq.entry_eq.2]
  exact TightenedTo.trans h hpq

end

end Backtester
