import AndroidBoot.Text.Escaped
import AndroidBoot.Toml.Value

/-!
# Shapes of values

A `Shape α` says which value of a document stands for a value of `α`, in both directions. `Fields`
are the named parts of a record, which is read from a table or, in their order, from an array. An
array longer than its shape asks for is refused where the shape is strict, and cut otherwise.

    s.ofValue? (s.toValue a) = some a
-/

namespace AndroidBoot.Toml

structure Shape (α : Type) where
  toValue : α → Value
  ofValue? : Value → Option α

/-- What is written can be read again. -/
def Shape.Lawful {α : Type} (s : Shape α) : Prop := ∀ a, s.ofValue? (s.toValue a) = some a

namespace Shape

variable {α β : Type}

def text : Shape String where
  toValue s := .string s
  ofValue?
    | .string s => some s
    | _ => none

def boolean : Shape Bool where
  toValue b := .boolean b
  ofValue?
    | .boolean b => some b
    | _ => none

/-- A natural number below `limit`. -/
def natBelow? (limit : Nat) : Value → Option Nat
  | .integer (.ofNat n) => if n < limit then some n else none
  | _ => none

def word : Shape UInt32 where
  toValue n := .integer n.toNat
  ofValue? v := (natBelow? UInt32.size v).map UInt32.ofNat

def long : Shape UInt64 where
  toValue n := .integer n.toNat
  ofValue? v := (natBelow? UInt64.size v).map UInt64.ofNat

/-- A byte field as escaped text. -/
def escaped (n : Nat) : Shape (Vector UInt8 n) where
  toValue v := .string (escapeField v)
  ofValue?
    | .string s => (unescapeField n s).toOption
    | _ => none

/-- The text that `write` gives and `read?` takes. -/
def named (write : α → String) (read? : String → Option α) : Shape α where
  toValue a := .string (write a)
  ofValue?
    | .string s => read? s
    | _ => none

/-- The first `n` items of an array that holds no more if `strict`. -/
def items? (strict : Bool) (n : Nat) (items : List Value) : Option (List Value) :=
  if items.length < n ∨ (strict ∧ items.length ≠ n) then none else some (items.take n)

def list (s : Shape α) : Shape (List α) where
  toValue as := .array (as.map s.toValue)
  ofValue?
    | .array vs => vs.mapM s.ofValue?
    | _ => none

def vector (strict : Bool) (s : Shape α) (n : Nat) : Shape (Vector α n) where
  toValue v := .array (v.toList.map s.toValue)
  ofValue?
    | .array vs => do
      let as ← (← items? strict n vs).mapM s.ofValue?
      if h : as.length = n then some ⟨as.toArray, by simpa using h⟩ else none
    | _ => none

def pair (strict : Bool) (s : Shape α) (t : Shape β) : Shape (α × β) where
  toValue p := .array [s.toValue p.1, t.toValue p.2]
  ofValue?
    | .array vs => do
      match ← items? strict 2 vs with
      | [a, b] => return (← s.ofValue? a, ← t.ofValue? b)
      | _ => none
    | _ => none

end Shape

/-! ## Records -/

/-- The named parts of an `α`, each with a value. -/
structure Fields (α : Type) where
  names : List String
  toValues : α → List Value
  ofValues? : List Value → Option α

namespace Fields

variable {α β : Type}

def one (name : String) (s : Shape α) : Fields α where
  names := [name]
  toValues a := [s.toValue a]
  ofValues?
    | [v] => s.ofValue? v
    | _ => none

/-- A field in front of others. -/
def cons (name : String) (s : Shape α) (fs : Fields β) : Fields (α × β) where
  names := name :: fs.names
  toValues p := s.toValue p.1 :: fs.toValues p.2
  ofValues?
    | v :: vs => do return (← s.ofValue? v, ← fs.ofValues? vs)
    | [] => none

def map (fs : Fields α) (f : α → β) (g : β → α) : Fields β where
  names := fs.names
  toValues b := fs.toValues (g b)
  ofValues? vs := (fs.ofValues? vs).map f

/-- The fields of a record. -/
def entries (fs : Fields α) (a : α) : Table := fs.names.zip (fs.toValues a)

/-- The record that a table or an array holds. Fields with other names are passed over. -/
def ofValue? (strict : Bool) (fs : Fields α) : Value → Option α
  | .table t => do fs.ofValues? (← fs.names.mapM fun name => t.lookup name)
  | .array vs => do fs.ofValues? (← Shape.items? strict fs.names.length vs)
  | _ => none

end Fields

/-- The value of a field that need not be there. -/
def optionalField? {α : Type} (t : Table) (name : String) (s : Shape α) : Option (Option α) :=
  match t.lookup name with
  | some v => (s.ofValue? v).map some
  | none => some none

end AndroidBoot.Toml
