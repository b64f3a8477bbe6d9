import Mathlib.Data.Rat.Floor

/-!
# Support — Json

JSON values and the reads a C++ JSON library offers: `contains`, `value` with a default, and the
conversions, which throw on a value of another kind (`none`).

* `CInt`: what the conversion to a 32-bit `int` gives.
* `same_iff`: whether two values are the same can be decided.
* `Assignments`, `assign`: reads into the fields of a value, up to the first that throws.
* `Keeps`: what of the value they leave alone.
-/

namespace Support

/-- A 32-bit `int`. -/
abbrev CInt := { n : ℤ // -2147483648 ≤ n ∧ n < 2147483648 }

theorem bmod_int32_bounds (n : ℤ) :
    -2147483648 ≤ n.bmod 4294967296 ∧ n.bmod 4294967296 < 2147483648 := by
  have hlow := @Int.le_bmod n 4294967296 (by decide)
  have hhigh := @Int.bmod_lt n 4294967296 (by decide)
  omega

/-- The `int` a larger integer becomes. -/
def CInt.wrap (n : ℤ) : CInt := ⟨n.bmod 4294967296, bmod_int32_bounds n⟩

instance (n : ℕ) : OfNat CInt n := ⟨CInt.wrap n⟩

/-- An integer stays what it is exactly where it fits. -/
theorem bmod_int32_eq_self_iff (n : ℤ) :
    n.bmod 4294967296 = n ↔ -2147483648 ≤ n ∧ n < 2147483648 := by
  constructor
  · intro h
    have hbounds := bmod_int32_bounds n
    rwa [h] at hbounds
  · intro h
    exact Int.bmod_eq_of_le_mul_two (by omega) (by omega)

@[simp] theorem CInt.wrap_val (n : CInt) : CInt.wrap n.val = n :=
  Subtype.ext ((bmod_int32_eq_self_iff n.val).mpr n.property)

/-- A JSON value. -/
inductive Json
  | null
  | bool (b : Bool)
  | num (x : ℚ)
  | str (s : String)
  | arr (items : List Json)
  | obj (fields : List (String × Json))

namespace Json

/-- The member of an object; no other value has one. -/
def member (key : String) : Json → Option Json
  | .obj fields => fields.lookup key
  | _ => none

/-- `j.contains(key)` -/
def contains (key : String) (j : Json) : Bool := (j.member key).isSome

/-- `j.get<bool>()` -/
def getBool : Json → Option Bool
  | .bool b => some b
  | _ => none

/-- `j.get<double>()` -/
def getRat : Json → Option ℚ
  | .num x => some x
  | _ => none

/-- `j.get<int>()`: numbers are truncated, and `true` and `false` are 1 and 0. -/
def getInt : Json → Option ℤ
  | .num x => some (x.num.tdiv x.den)
  | .bool b => some (if b then 1 else 0)
  | _ => none

/-- `j.get<float>()`: `true` and `false` are 1 and 0. -/
def getFloat : Json → Option ℚ
  | .num x => some x
  | .bool b => some (if b then 1 else 0)
  | _ => none

/-- `j.get<int>()` where the number may be too large for it. -/
def getCInt (j : Json) : Option CInt := j.getInt.map CInt.wrap

def getInt32 (j : Json) : Option ℤ := j.getCInt.map (·.val)

/-- `j.get<std::string>()` -/
def getStr : Json → Option String
  | .str s => some s
  | _ => none

/-- `j.get<std::vector<_>>()`, element by element. -/
def getList {α : Type} (get : Json → Option α) : Json → Option (List α)
  | .arr items => items.mapM get
  | _ => none

/-- `j.value(key, default)`: throws unless `j` is an object and the member, if there, converts. -/
def value {α : Type} (get : Json → Option α) (key : String) (default : α) : Json → Option α
  | .obj fields =>
      match fields.lookup key with
      | some j => get j
      | none => some default
  | _ => none

/-- A field changed where it is there. -/
def changeField (key : String) (f : Json → Json) : List (String × Json) → List (String × Json)
  | [] => []
  | field :: fields =>
      if field.1 = key then (key, f field.2) :: fields else field :: changeField key f fields

/-- `if (j.contains(key)) j[key] = f(j[key]);` -/
def changeMember (key : String) (f : Json → Json) : Json → Json
  | .obj fields => .obj (changeField key f fields)
  | j => j

/-- What a range-for over the value visits. -/
def items : Json → List Json
  | .null => []
  | .arr items => items
  | .obj fields => fields.map (·.2)
  | j => [j]

@[simp] theorem getInt_intCast (n : ℤ) : getInt (.num n) = some n := by
  simp [getInt]

theorem getInt32_intCast (n : ℤ) : getInt32 (.num n) = some (n.bmod 4294967296) := by
  rw [getInt32, getCInt, getInt_intCast]
  rfl

theorem getCInt_val (n : CInt) : getCInt (.num n.val) = some n := by
  rw [getCInt, getInt_intCast, Option.map_some, CInt.wrap_val]

theorem getList_map {α : Type} {get : Json → Option α} {put : α → Json}
    (h : ∀ a, get (put a) = some a) (as : List α) : getList get (.arr (as.map put)) = some as := by
  show (as.map put).mapM get = some as
  induction as with
  | nil => rfl
  | cons a as ih => simp [List.mapM_cons, h, ih]

/-! ### Changing a member -/

theorem lookup_changeField (key other : String) (f : Json → Json) (fields : List (String × Json)) :
    (changeField key f fields).lookup other =
      if other = key then (fields.lookup key).map f else fields.lookup other := by
  induction fields with
  | nil => simp [changeField]
  | cons field fields ih =>
      obtain ⟨name, j⟩ := field
      by_cases hname : name = key
      · by_cases hother : other = key
        · simp [changeField, hname, hother]
        · simp [changeField, hname, hother, List.lookup_cons, beq_eq_false_iff_ne.mpr hother]
      · by_cases hother : other = key
        · subst hother
          have hne : (other == name) = false := beq_eq_false_iff_ne.mpr (Ne.symm hname)
          simp [changeField, hname, List.lookup_cons, hne, ih]
        · simp [changeField, hname, hother, List.lookup_cons, ih]

/-- **A changed member** is changed, and the others are as they were. -/
theorem member_changeMember (key other : String) (f : Json → Json) (j : Json) :
    (j.changeMember key f).member other =
      if other = key then (j.member key).map f else j.member other := by
  cases j with
  | obj fields => exact lookup_changeField key other f fields
  | null | bool | num | str | arr => simp [changeMember, member]

/-- A change changes nothing where the member is there and changed into itself, or not there. -/
theorem changeMember_eq_self {key : String} {f : Json → Json} {j : Json}
    (h : ∀ v ∈ j.member key, f v = v) : j.changeMember key f = j := by
  cases j with
  | obj fields =>
      refine congrArg Json.obj ?_
      simp only [member] at h
      induction fields with
      | nil => rfl
      | cons field fields ih =>
          obtain ⟨name, v⟩ := field
          rw [changeField]
          split
          · next hname =>
              simp only at hname
              subst hname
              rw [h v (by simp)]
          · next hname =>
              rw [ih fun v hv => h v ?_]
              rwa [List.lookup_cons, beq_eq_false_iff_ne.mpr (Ne.symm hname)]
  | null | bool | num | str | arr => rfl

/-! ### Equality -/

mutual

/-- Are the values the same? -/
def same : Json → Json → Bool
  | .null, .null => true
  | .bool a, .bool b => a == b
  | .num x, .num y => x == y
  | .str s, .str t => s == t
  | .arr items, .arr others => sameItems items others
  | .obj fields, .obj others => sameFields fields others
  | _, _ => false

def sameItems : List Json → List Json → Bool
  | [], [] => true
  | a :: as, b :: bs => same a b && sameItems as bs
  | _, _ => false

def sameFields : List (String × Json) → List (String × Json) → Bool
  | [], [] => true
  | (key, a) :: as, (other, b) :: bs => key == other && same a b && sameFields as bs
  | _, _ => false

end

mutual

theorem same_iff (a b : Json) : same a b = true ↔ a = b := by
  cases a <;> cases b <;> simp only [same, beq_iff_eq, reduceCtorEq, Bool.false_eq_true,
    bool.injEq, num.injEq, str.injEq, arr.injEq, obj.injEq]
  case arr.arr items others => exact sameItems_iff items others
  case obj.obj fields others => exact sameFields_iff fields others

theorem sameItems_iff (as bs : List Json) : sameItems as bs = true ↔ as = bs := by
  cases as <;> cases bs <;>
    simp only [sameItems, Bool.and_eq_true, List.cons.injEq, reduceCtorEq, Bool.false_eq_true]
  case cons.cons a as b bs => exact and_congr (same_iff a b) (sameItems_iff as bs)

theorem sameFields_iff (as bs : List (String × Json)) : sameFields as bs = true ↔ as = bs := by
  rcases as with _ | ⟨⟨key, a⟩, as⟩ <;> rcases bs with _ | ⟨⟨other, b⟩, bs⟩ <;>
    simp only [sameFields, Bool.and_eq_true, List.cons.injEq, Prod.mk.injEq, beq_iff_eq,
      reduceCtorEq, Bool.false_eq_true]
  exact and_congr (and_congr Iff.rfl (same_iff a b)) (sameFields_iff as bs)

end

instance : DecidableEq Json := fun a b => decidable_of_iff _ (same_iff a b)

end Json

/-- Assignments to a value, until one throws. -/
abbrev Assignments (σ : Type) := OptionT (StateM σ)

/-- One assignment: the converted value, or the exception, which leaves everything as it is. -/
def assign {σ α : Type} (read : Option α) (set : α → σ → σ) : Assignments σ Unit :=
  match read with
  | some a => modify (set a)
  | none => failure

/-- However far the assignments get, `f` of the value stays as it is. -/
def Keeps {σ τ α : Type} (f : σ → τ) (p : Assignments σ α) : Prop :=
  ∀ s, f (p.run.run s).2 = f s

section Keeps
variable {σ τ α β : Type} {f : σ → τ}

theorem keeps_pure (a : α) : Keeps f (pure a : Assignments σ α) := fun _ => rfl

theorem keeps_failure : Keeps f (failure : Assignments σ α) := fun _ => rfl

theorem Keeps.bind {p : Assignments σ α} {q : α → Assignments σ β} (hp : Keeps f p)
    (hq : ∀ a, Keeps f (q a)) : Keeps f (p >>= q) := by
  intro s
  have hbind : ((p >>= q).run.run s) = match p.run.run s with
      | (some a, s') => (q a).run.run s'
      | (none, s') => (none, s') := by
    simp only [OptionT.run_bind, Option.elimM, StateT.run_bind]
    cases p.run.run s with
    | mk a s' => cases a <;> rfl
  rw [hbind, ← hp s]
  rcases p.run.run s with ⟨_ | a, s'⟩
  · rfl
  · exact hq a s'

theorem keeps_assign {read : Option α} {set : α → σ → σ}
    (h : ∀ a ∈ read, ∀ s, f (set a s) = f s) : Keeps f (assign read set) := by
  cases read with
  | none => exact keeps_failure
  | some a => exact h a rfl

end Keeps

end Support
