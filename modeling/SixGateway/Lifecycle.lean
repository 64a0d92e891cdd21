import Mathlib.Data.Int.Order.Basic

namespace SixGateway.Lifecycle

inductive Role where
  | authorised
  | pending
  | captured
  | customer
  deriving DecidableEq

/-- What a booking of `n` from one role to another adds to every position. -/
def transfer (debited credited : Role) (n : Int) (role : Role) : Int :=
  (if role = credited then n else 0) - (if role = debited then n else 0)

inductive Phase where
  | authorised
  | captured
  | reversed
  deriving DecidableEq

/-- A payment as its books should show it: what was authorised, captured and given back. Before
the capture nothing is received, and nothing more is given back than was received. -/
structure Payment where
  amount : Int
  received : Int
  refunded : Int
  phase : Phase
  refunded_nonneg : 0 ≤ refunded
  refunded_le : refunded ≤ received
  uncaptured : phase ≠ .captured → received = 0

namespace Payment

def net (a : Payment) : Role → Int
  | .authorised => if a.phase = .reversed then 0 else a.amount - a.received
  | .pending => if a.phase = .reversed then 0 else -a.amount
  | .captured => a.received - a.refunded
  | .customer => a.refunded

def authorise (n : Int) : Payment := ⟨n, 0, 0, .authorised, le_refl 0, le_refl 0, fun _ => rfl⟩

/-- The payment is known to have succeeded before its capture is booked. -/
def settle (a : Payment) : Payment :=
  { a with phase := .captured, uncaptured := fun hc => absurd rfl hc }

def capture (a : Payment) (n : Int) (h : a.phase = .authorised) (hn : 0 ≤ n) : Payment where
  amount := a.amount
  received := n
  refunded := a.refunded
  phase := .captured
  refunded_nonneg := a.refunded_nonneg
  refunded_le := by
    have hr := a.uncaptured (by simp [h])
    have := a.refunded_le
    omega
  uncaptured hc := absurd rfl hc

def refund (a : Payment) (n : Int) (hn : 0 ≤ n) (hle : n ≤ a.received - a.refunded) : Payment :=
  { a with
    refunded := a.refunded + n
    refunded_nonneg := Int.add_nonneg a.refunded_nonneg hn
    refunded_le := by omega }

def reverse (a : Payment) (h : a.phase = .authorised) : Payment :=
  { a with phase := .reversed, uncaptured := fun _ => a.uncaptured (by simp [h]) }

variable (a : Payment) (n : Int) (role : Role)

theorem received_eq_zero (h : a.phase ≠ .captured) : a.received = 0 ∧ a.refunded = 0 := by
  have hr := a.uncaptured h
  have hn := a.refunded_nonneg
  have hl := a.refunded_le
  exact ⟨hr, by omega⟩

theorem net_authorise : (authorise n).net role = transfer .pending .authorised n role := by
  cases role <;> simp [net, authorise, transfer]

theorem net_settle (h : a.phase = .authorised) : a.settle.net role = a.net role := by
  cases role <;> simp [net, settle, h]

theorem net_capture (h : a.phase = .authorised) (hn : 0 ≤ n) :
    (a.capture n h hn).net role = a.net role + transfer .authorised .captured n role := by
  obtain ⟨hr, hf⟩ := a.received_eq_zero (by simp [h])
  cases role <;> simp only [net, capture, transfer, h, hr, hf, if_true, if_false, reduceCtorEq] <;>
    omega

theorem net_refund (hn : 0 ≤ n) (hle : n ≤ a.received - a.refunded) :
    (a.refund n hn hle).net role = a.net role + transfer .captured .customer n role := by
  have hp : (a.refund n hn hle).phase = a.phase := rfl
  cases role <;> simp only [net, hp, transfer, if_true, if_false, reduceCtorEq] <;>
    simp only [refund] <;> omega

theorem net_reverse (h : a.phase = .authorised) :
    (a.reverse h).net role = a.net role + transfer .authorised .pending a.amount role := by
  obtain ⟨hr, hf⟩ := a.received_eq_zero (by simp [h])
  cases role <;> simp only [net, reverse, transfer, h, hr, hf, if_true, if_false, reduceCtorEq] <;>
    omega

end Payment

end SixGateway.Lifecycle
