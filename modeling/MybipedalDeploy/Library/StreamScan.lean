import Mathlib.Data.List.Basic

/-!
# Leftmost scanning of a stream

A scanner looks at what it has and waits for more, skips one symbol, rejects a
candidate and goes on one symbol later, or accepts a prefix. If more input never
changes a verdict that was not to wait, a stream cut into chunks gives the tokens
of the stream read at once, and the unread rest is the same.
-/

namespace MybipedalDeploy.StreamScan

inductive Verdict
  | wait
  | skip
  | reject (length : ℕ)
  | accept (length : ℕ)
  deriving DecidableEq

structure Scanner (α : Type*) where
  look : List α → Verdict
  look_nil : look [] = .wait
  reject_le : ∀ {xs n}, look xs = .reject n → n ≤ xs.length
  accept_pos : ∀ {xs n}, look xs = .accept n → 0 < n
  accept_le : ∀ {xs n}, look xs = .accept n → n ≤ xs.length
  stable : ∀ {xs} ys, look xs ≠ .wait → look (xs ++ ys) = look xs

inductive Token (α : Type*)
  | rejected (candidate : List α)
  | accepted (frame : List α)
  deriving DecidableEq

structure Result (α : Type*) where
  tokens : List (Token α)
  rest : List α

namespace Token
variable {α : Type*}

def frame? : Token α → Option (List α)
  | .accepted f => some f
  | .rejected _ => none

def candidate? : Token α → Option (List α)
  | .accepted _ => none
  | .rejected f => some f

end Token

namespace Result
variable {α : Type*}

def frames (r : Result α) : List (List α) := r.tokens.filterMap Token.frame?
def rejected (r : Result α) : List (List α) := r.tokens.filterMap Token.candidate?

end Result

namespace Scanner
variable {α : Type*} (S : Scanner α)

/-- Each verdict but the first uses up a symbol, so the length is fuel enough. -/
def scanFuel : ℕ → List α → Result α
  | 0, xs => ⟨[], xs⟩
  | fuel + 1, xs =>
    match S.look xs with
    | .wait => ⟨[], xs⟩
    | .skip => scanFuel fuel xs.tail
    | .reject n =>
      let r := scanFuel fuel xs.tail
      ⟨.rejected (xs.take n) :: r.tokens, r.rest⟩
    | .accept n =>
      let r := scanFuel fuel (xs.drop n)
      ⟨.accepted (xs.take n) :: r.tokens, r.rest⟩

def scan (xs : List α) : Result α := S.scanFuel xs.length xs

variable {S}

theorem ne_nil_of_look {xs : List α} (h : S.look xs ≠ .wait) : xs ≠ [] := by
  rintro rfl
  exact h S.look_nil

theorem length_tail_lt {xs : List α} (h : S.look xs ≠ .wait) : xs.tail.length < xs.length := by
  have hpos := List.length_pos_of_ne_nil (ne_nil_of_look h)
  rw [List.length_tail]
  omega

theorem length_drop_lt {xs : List α} {n : ℕ} (h : S.look xs = .accept n) :
    (xs.drop n).length < xs.length := by
  have hpos := S.accept_pos h
  have hle := S.accept_le h
  rw [List.length_drop]
  omega

theorem scanFuel_of_wait {fuel : ℕ} {xs : List α} (h : S.look xs = .wait) :
    S.scanFuel fuel xs = ⟨[], xs⟩ := by
  cases fuel with
  | zero => rfl
  | succ fuel => simp only [scanFuel, h]

theorem scanFuel_congr {k m : ℕ} {xs : List α} (hk : xs.length ≤ k) (hm : xs.length ≤ m) :
    S.scanFuel k xs = S.scanFuel m xs := by
  induction k generalizing m xs with
  | zero =>
    obtain rfl := List.eq_nil_of_length_eq_zero (Nat.le_zero.mp hk)
    rw [scanFuel_of_wait S.look_nil, scanFuel_of_wait S.look_nil]
  | succ k ih =>
    by_cases hwait : S.look xs = .wait
    · rw [scanFuel_of_wait hwait, scanFuel_of_wait hwait]
    · have htail := length_tail_lt hwait
      obtain ⟨m, rfl⟩ := Nat.exists_eq_succ_of_ne_zero (show m ≠ 0 by omega)
      cases hlook : S.look xs with
      | wait => exact absurd hlook hwait
      | skip =>
        simp only [scanFuel, hlook]
        exact ih (by omega) (by omega)
      | reject n =>
        simp only [scanFuel, hlook]
        rw [ih (by omega) (show xs.tail.length ≤ m by omega)]
      | accept n =>
        have hdrop := length_drop_lt hlook
        simp only [scanFuel, hlook]
        rw [ih (by omega) (show (xs.drop n).length ≤ m by omega)]

theorem scan_eq_succ (xs : List α) : S.scan xs = S.scanFuel (xs.length + 1) xs :=
  scanFuel_congr (Nat.le_refl _) (Nat.le_succ _)

theorem scan_of_wait {xs : List α} (h : S.look xs = .wait) : S.scan xs = ⟨[], xs⟩ :=
  scanFuel_of_wait h

theorem scan_of_skip {xs : List α} (h : S.look xs = .skip) : S.scan xs = S.scan xs.tail := by
  have hlt := length_tail_lt (S := S) (by rw [h]; decide)
  rw [scan_eq_succ]
  simp only [scanFuel, h]
  exact scanFuel_congr (Nat.le_of_lt hlt) (Nat.le_refl _)

theorem scan_of_reject {xs : List α} {n : ℕ} (h : S.look xs = .reject n) :
    S.scan xs = ⟨.rejected (xs.take n) :: (S.scan xs.tail).tokens, (S.scan xs.tail).rest⟩ := by
  have hlt := length_tail_lt (S := S) (by rw [h]; exact Verdict.noConfusion)
  rw [scan_eq_succ]
  simp only [scanFuel, h, scan]
  rw [scanFuel_congr (Nat.le_of_lt hlt) (Nat.le_refl _)]

theorem scan_of_accept {xs : List α} {n : ℕ} (h : S.look xs = .accept n) :
    S.scan xs = ⟨.accepted (xs.take n) :: (S.scan (xs.drop n)).tokens, (S.scan (xs.drop n)).rest⟩ := by
  have hlt := length_drop_lt h
  rw [scan_eq_succ]
  simp only [scanFuel, h, scan]
  rw [scanFuel_congr (Nat.le_of_lt hlt) (Nat.le_refl _)]

theorem scan_induction {P : List α → Prop} (wait : ∀ xs, S.look xs = .wait → P xs)
    (skip : ∀ xs, S.look xs = .skip → P xs.tail → P xs)
    (reject : ∀ xs n, S.look xs = .reject n → P xs.tail → P xs)
    (accept : ∀ xs n, S.look xs = .accept n → P (xs.drop n) → P xs) (xs : List α) : P xs := by
  induction hlen : xs.length using Nat.strongRecOn generalizing xs with
  | ind len ih =>
    subst hlen
    cases hlook : S.look xs with
    | wait => exact wait xs hlook
    | skip => exact skip xs hlook (ih _ (length_tail_lt (by rw [hlook]; decide)) _ rfl)
    | reject n =>
      exact reject xs n hlook (ih _ (length_tail_lt (by rw [hlook]; exact Verdict.noConfusion)) _ rfl)
    | accept n => exact accept xs n hlook (ih _ (length_drop_lt hlook) _ rfl)

theorem look_rest (xs : List α) : S.look (S.scan xs).rest = .wait := by
  induction xs using S.scan_induction with
  | wait xs h => rwa [scan_of_wait h]
  | skip xs h ih => rwa [scan_of_skip h]
  | reject xs n h ih => rwa [scan_of_reject h]
  | accept xs n h ih => rwa [scan_of_accept h]

/-- Scanning goes on where it stopped when more input arrives. -/
theorem scan_append (xs ys : List α) :
    S.scan (xs ++ ys) =
      ⟨(S.scan xs).tokens ++ (S.scan ((S.scan xs).rest ++ ys)).tokens,
        (S.scan ((S.scan xs).rest ++ ys)).rest⟩ := by
  induction xs using S.scan_induction with
  | wait xs h => simp [scan_of_wait h]
  | skip xs h ih =>
    have hne := ne_nil_of_look (S := S) (by rw [h]; decide)
    -- A verdict other than `wait` stands when `ys` is there from the start.
    have happ : S.look (xs ++ ys) = .skip := (S.stable ys (by rw [h]; decide)).trans h
    rw [scan_of_skip happ, scan_of_skip h, List.tail_append_of_ne_nil hne, ih]
  | reject xs n h ih =>
    have hwait : S.look xs ≠ .wait := by rw [h]; exact Verdict.noConfusion
    have happ : S.look (xs ++ ys) = .reject n := (S.stable ys hwait).trans h
    rw [scan_of_reject happ, scan_of_reject h, List.tail_append_of_ne_nil (ne_nil_of_look hwait), ih,
      List.take_append_of_le_length (S.reject_le h)]
    rfl
  | accept xs n h ih =>
    have hwait : S.look xs ≠ .wait := by rw [h]; exact Verdict.noConfusion
    have happ : S.look (xs ++ ys) = .accept n := (S.stable ys hwait).trans h
    rw [scan_of_accept happ, scan_of_accept h, List.drop_append_of_le_length (S.accept_le h), ih,
      List.take_append_of_le_length (S.accept_le h)]
    rfl

end Scanner
end MybipedalDeploy.StreamScan
