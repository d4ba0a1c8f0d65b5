import Mps.Land.Class

namespace Mps

structure FailoverStruct (σ τ : Type) where
  primary : σ
  secondary : τ

section Failover

variable {w : Nat} {σ τ : Type} (P : LandClass w σ) (S : LandClass w τ)
  (LandFlush : FlushMethod σ τ)

def failoverSize (fo : FailoverStruct σ τ) : Nat :=
  (P.sizeMethod fo.primary + S.sizeMethod fo.secondary) % 2 ^ w

def failoverInsert (fo : FailoverStruct σ τ) (range : Range w) :
    Res × Range w × FailoverStruct σ τ :=
  let (_, primary, secondary) := LandFlush fo.primary fo.secondary
  let (res, rangeReturn, primary) := P.insert primary range
  if res ≠ .ok ∧ res ≠ .fail then
    let (res, rangeReturn, secondary) := S.insert secondary range
    (res, rangeReturn, ⟨primary, secondary⟩)
  else
    (res, rangeReturn, ⟨primary, secondary⟩)

def failoverInsertSteal (fo : FailoverStruct σ τ) ( rangeIO : Range w) :
    Except String (Res × Range w × Range w × FailoverStruct σ τ) := do
  let (_, primary, secondary) := LandFlush fo.primary fo.secondary
  let (res, rangeReturn, rangeIO, primary) := P.insertSteal primary rangeIO
  AVER (res == .ok || res == .fail) "res == ResOK || res == ResFAIL"
  return (res, rangeReturn, rangeIO, ⟨primary, secondary⟩)

-- One fragment of the recovery path, inserted into the children directly
def failoverReinsert (res : Res) (fragment : Range w) (primary : σ) (secondary : τ) :
    Except String (Res × σ × τ) := do
  if RangeIsEmpty fragment then return (res, primary, secondary)
  let (res, _, primary) := P.insert primary fragment
  if res = .ok then return (res, primary, secondary)
  -- The range was successfully deleted from the primary above.
  AVER (res != .fail) "res != ResFAIL"
  let (res, _, secondary) := S.insert secondary fragment
  AVER (res == .ok) "res == ResOK"
  return (res, primary, secondary)

def failoverDeleteDone (critical : Bool) (res : Res) (rangeReturn oldRange range : Range w)
    (fo : FailoverStruct σ τ) : Except String (Res × Range w × FailoverStruct σ τ) :=
  if res = .ok then do
    AVER_CRITICAL critical (RangesNest oldRange range) "RangesNest(&oldRange, range)"
    return (res, oldRange, fo)
  else
    return (res, rangeReturn, fo)

def failoverDelete (critical : Bool) (fo : FailoverStruct σ τ) (rangeReturn range : Range w) :
    Except String (Res × Range w × FailoverStruct σ τ) := do
  let (_, primary, secondary) := LandFlush fo.primary fo.secondary
  let (res, oldRange, primary) := P.delete primary range
  if res = .fail then
    -- Range not found in primary: try secondary.
    let (res, rangeReturn, secondary) := S.delete secondary range
    return (res, rangeReturn, ⟨primary, secondary⟩)
  if res = .ok then
    failoverDeleteDone critical res rangeReturn oldRange range ⟨primary, secondary⟩
  else
    -- Range was found in primary, but couldn't be deleted. Delete the whole of oldRange, and
    -- re-insert the fragments (which might end up in the secondary).
    AVER (ResIsAllocFailure res) "ResIsAllocFailure(res)"
    let (res, dummyRange, primary) := P.delete primary oldRange
    if res ≠ .ok then return (res, rangeReturn, ⟨primary, secondary⟩)
    AVER (RangesEqual oldRange dummyRange) "RangesEqual(&oldRange, &dummyRange)"
    let left ← RangeInit oldRange.base range.base range.base_lt_two_pow
    let (res, primary, secondary) ← failoverReinsert P S res left primary secondary
    let right ← RangeInit range.limit oldRange.limit oldRange.limit_lt
    let (res, primary, secondary) ← failoverReinsert P S res right primary secondary
    failoverDeleteDone critical res rangeReturn oldRange range ⟨primary, secondary⟩

def failoverDeleteSteal (fo : FailoverStruct σ τ) (range : Range w) :
    Except String (Res × Range w × FailoverStruct σ τ) := do
  let (_, primary, secondary) := LandFlush fo.primary fo.secondary
  let (res, rangeReturn, primary) := P.deleteSteal primary range
  -- Not found in primary: try secondary.
  let (res, rangeReturn, secondary) :=
    if res = .fail then S.deleteSteal secondary range else (res, rangeReturn, secondary)
  AVER (res == .ok || res == .fail) "res == ResOK || res == ResFAIL"
  return (res, rangeReturn, ⟨primary, secondary⟩)

def failoverIterate {γ : Type} (fo : FailoverStruct σ τ) (visitor : Range w → γ → Bool × γ)
    (closure : γ) : Bool × γ :=
  match P.iterate fo.primary visitor closure with
  | (true, closure) => S.iterate fo.secondary visitor closure
  | (false, closure) => (false, closure)

-- The three finds differ only in the child method they call.
def failoverFind (findP : σ → Nat → FindDelete → Bool × Range w × Range w × σ)
    (findS : τ → Nat → FindDelete → Bool × Range w × Range w × τ)
    (fo : FailoverStruct σ τ) (size : Nat) (findDelete : FindDelete) :
    Bool × Range w × Range w × FailoverStruct σ τ :=
  let (_, primary, secondary) := LandFlush fo.primary fo.secondary
  match findP primary size findDelete with
  | (true, rangeReturn, oldRangeReturn, primary) =>
      (true, rangeReturn, oldRangeReturn, ⟨primary, secondary⟩)
  | (false, _, _, primary) =>
      let (found, rangeReturn, oldRangeReturn, secondary) := findS secondary size findDelete
      (found, rangeReturn, oldRangeReturn, ⟨primary, secondary⟩)

def failoverFindFirst := failoverFind LandFlush P.findFirst S.findFirst

def failoverFindLast := failoverFind LandFlush P.findLast S.findLast

def failoverFindLargest := failoverFind LandFlush P.findLargest S.findLargest

-- The source guards the whole body with `AVER_CRITICAL(FALSE)`, as it is untested.
def failoverFindInZones (critical : Bool) (fo : FailoverStruct σ τ) (size zoneSet : Nat)
    (high : Bool) : Except String (Res × Bool × Range w × Range w × FailoverStruct σ τ) := do
  AVER_CRITICAL critical false "FALSE"
  let (_, primary, secondary) := LandFlush fo.primary fo.secondary
  let (res, found, rangeReturn, oldRangeReturn, primary) :=
    P.findInZones primary size zoneSet high
  let (res, found, rangeReturn, oldRangeReturn, secondary) :=
    if res ≠ .ok ∨ found = false then S.findInZones secondary size zoneSet high
    else (res, found, rangeReturn, oldRangeReturn, secondary)
  return (res, found, rangeReturn, oldRangeReturn, ⟨primary, secondary⟩)

end Failover

end Mps
