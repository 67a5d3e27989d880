import AndroidBoot.Text.Blank
import AndroidBoot.Text.Search

/-!
# Fragments

A fragment is one piece of the kernel command line or of the bootconfig. From header version 4 on,
what names an `androidboot.` parameter belongs into the bootconfig.

    verifiedBoot in the bootconfig is its words, one to a line
-/

namespace AndroidBoot

/-- The mark of a parameter that bootconfig can hold. -/
def androidBootMark : String := "androidboot."

/-- The last header version without a bootconfig. -/
def lastLegacyVersion : Nat := 3

/-- Whether a text names a parameter that belongs into the bootconfig. -/
def belongsInBootconfig (text : String) (version : Nat) : Bool :=
  lastLegacyVersion < version && holds androidBootMark.toList text.toList

inductive Destination where
  | cmdline
  | bootconfig
deriving DecidableEq, Repr

/-- A piece of one of the outputs. On the command line it brings its own leading blank. -/
structure Fragment where
  text : String
  destination : Destination
deriving DecidableEq, Repr

namespace Fragment

/-- Where a fragment goes that is known by `text`. -/
def route (text : String) (version : Nat) : Destination :=
  if belongsInBootconfig text version then .bootconfig else .cmdline

/-- A fragment of the command line. -/
def plain (text : String) : Fragment := ⟨text, .cmdline⟩

/-- A key and its value; the key says where they go. -/
def keyed (key value : String) (version : Nat) : Fragment := ⟨key ++ value, route key version⟩

/-- A fragment that goes where its whole text says. -/
def routed (text : String) (version : Nat) : Fragment := ⟨text, route text version⟩

/-- The words of a text, each on a line of its own. -/
def wordLines (text : String) : String :=
  "\n".intercalate ((words text.toList).map String.ofList)

/-- The arguments of verified boot; in the bootconfig each has a line of its own. -/
def verifiedBoot (text : String) (version : Nat) : Fragment :=
  if belongsInBootconfig text version then ⟨wordLines text, .bootconfig⟩ else plain text

/-- The number of bytes. -/
def size (f : Fragment) : Nat := f.text.utf8ByteSize

end Fragment

/-- The bootconfig entry of a text: the text without its spaces. -/
def bootconfigEntry (text : String) : String := String.ofList (text.toList.filter (· != ' '))

end AndroidBoot
