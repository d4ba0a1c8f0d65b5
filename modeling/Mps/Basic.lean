import Mathlib.Data.Bool.Basic

namespace Mps

-- mpm.h is not in the source: the result kinds as the spec lists them
inductive Res
  | ok
  | fail
  | allocFailure
  | limit
  | param
  | other
  deriving DecidableEq, Repr

def ResIsAllocFailure : Res → Bool
  | .allocFailure => true
  | _ => false

@[simp] theorem ResIsAllocFailure_iff (res : Res) : ResIsAllocFailure res = true ↔ res = .allocFailure := by
  cases res <;> simp [ResIsAllocFailure]

-- A failed `AVER` stops the program; `AVER_CRITICAL` is checked only in the cool variety.
def AVER (cond : Bool) (text : String) : Except String Unit :=
  if cond then pure () else throw text

def AVER_CRITICAL (critical cond : Bool) (text : String) : Except String Unit :=
  if critical then AVER cond text else pure ()

@[simp] theorem AVER_true (text : String) : AVER true text = pure () := rfl

@[simp] theorem AVER_eq_ok {cond : Bool} {text : String} {u : Unit} :
    AVER cond text = .ok u ↔ cond = true := by
  cases cond
  · exact iff_of_false (fun h => Except.noConfusion h) Bool.false_ne_true
  · exact iff_of_true rfl rfl

theorem bind_eq_ok {ε α β : Type} {x : Except ε α} {f : α → Except ε β} {b : β} :
    x >>= f = .ok b ↔ ∃ a, x = .ok a ∧ f a = .ok b := by
  cases x <;> simp [bind, Except.bind]

@[simp] theorem AVER_CRITICAL_true (critical : Bool) (text : String) :
    AVER_CRITICAL critical true text = pure () := by
  cases critical <;> rfl

theorem map_eq_ok {ε α β : Type} {x : Except ε α} {f : α → β} {b : β} :
    f <$> x = .ok b ↔ ∃ a, x = .ok a ∧ f a = b := by
  cases x <;> simp [Functor.map, Except.map]

end Mps
