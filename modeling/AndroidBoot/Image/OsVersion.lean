import AndroidBoot.Image.Error

/-!
# OS version words

The version and the security patch level share one word: seven bits each for major, minor and
patch, seven bits for the year since 2000 and four for the month.

    (ofWord r).toWord? = .ok r             for a month up to 12
    v.toWord? = .ok r → ofWord r = v
-/

namespace AndroidBoot

structure OsVersion where
  major : UInt8
  minor : UInt8
  patch : UInt8
  year : UInt16
  month : UInt8
deriving DecidableEq, Repr

namespace OsVersion

def ofWord (raw : UInt32) : OsVersion where
  major := UInt8.ofNat (raw.toNat >>> 25)
  minor := UInt8.ofNat ((raw.toNat >>> 18) % 128)
  patch := UInt8.ofNat ((raw.toNat >>> 11) % 128)
  year := UInt16.ofNat (2000 + (raw.toNat >>> 4) % 128)
  month := UInt8.ofNat (raw.toNat % 16)

/-- Refuses a value of a field that its bits cannot hold, and a month above 12. -/
def checkField (name : String) (range : Interval) (value : Nat) : Except ImageError Nat :=
  match range.check value with
  | .ok _ => .ok value
  | .error found => .error (.fieldOutOfBounds ("OsVersion::" ++ name) found)

def toWord? (v : OsVersion) : Except ImageError UInt32 := do
  let major ← checkField "major" (.upTo 0x7F) v.major.toNat
  let minor ← checkField "minor" (.upTo 0x7F) v.minor.toNat
  let patch ← checkField "patch" (.upTo 0x7F) v.patch.toNat
  let year ← checkField "year" (.closed 2000 2127) v.year.toNat
  let month ← checkField "month" (.upTo 12) v.month.toNat
  return UInt32.ofNat
    ((major <<< 25) + (minor <<< 18) + (patch <<< 11) + ((year - 2000) <<< 4) + month)

def text (v : OsVersion) : String :=
  toString v.major.toNat ++ "." ++ toString v.minor.toNat ++ "." ++ toString v.patch.toNat ++ " ("
    ++ decimal 4 v.year.toNat ++ "-" ++ decimal 2 v.month.toNat ++ ")"

end OsVersion

end AndroidBoot
