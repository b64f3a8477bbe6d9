import LoongNvr.Auth.UserStore

/-!
# Network — the handler that updates a user

`HandleUpdateUser`: name, role and enabled flag are written first, and only then the password is
looked at.

The caller is authorised and the store is set; the id of the path is a number (`none` where it is
too long for one), and a body is what the parser makes of its bytes.  Of an answer only its status
is kept.

* `handleUpdateUser_reached`, `handleUpdateUser_unreached`: the requests that get as far as
  writing, and what becomes of the others.
* `userRequestKept_iff`: a request is refused with nothing changed or carried out whole exactly
  where the password is no reason to refuse it, the role is one there is, the name has no NUL and
  the password is written.
-/

namespace LoongNvr.Network
open LoongNvr.Auth Support
open LoongNvr.Rules (cStr cStr_eq_self_iff)

/-- A request to update a user. -/
structure UserRequest where
  userId : Option ℤ
  body : Option Json

/-- The clock at the two statements, the new salt, and whether the statements are carried out. -/
structure UserUpdateRun where
  now : ℤ
  later : ℤ
  salt : String
  updateDone : Bool := true
  changeDone : Bool := true

/-- The reads before the first statement. -/
def readUserUpdate (existing : UserInfo) (j : Json) : Option (String × UserRole × Bool) := do
  let displayName ← j.value Json.getStr "display_name" existing.displayName
  let role ← j.value Json.getStr "role" (userRoleToString existing.role)
  let enabled ← j.value Json.getBool "enabled" existing.enabled
  return (displayName, parseUserRole role, enabled)

section
variable (sha256 : List UInt8 → List UInt8) (run : UserUpdateRun)

/-- The part of the handler about the password. -/
def updatePassword (userId : ℤ) (j : Json) (s : UserStore) : UserStore × ℕ :=
  match j.member "password" with
  | none => (s, 200)
  | some v =>
      match v.getStr with
      | none => (s, 400)
      | some password =>
          if password.isEmpty then (s, 200)
          else if password.utf8ByteSize < 6 then (s, 400)
          else ((s.changePassword sha256 userId password run.salt run.later run.changeDone).1, 200)

/-- `HandleUpdateUser` -/
def handleUpdateUser (r : UserRequest) (s : UserStore) : UserStore × ℕ :=
  match r.userId, r.body with
  | none, _ | _, none => (s, 400)
  | some userId, some j =>
      match s.getUser userId with
      | none => (s, 404)
      | some existing =>
          match readUserUpdate existing j with
          | none => (s, 400)
          | some (displayName, role, enabled) =>
              match s.updateUser userId displayName role enabled run.now run.updateDone with
              | (s, false) => (s, 500)
              | (s, true) => updatePassword sha256 run userId j s

end

/-! ### How far a request gets -/

/-- The fields a request writes first. -/
structure UserFields where
  displayName : String
  role : UserRole
  enabled : Bool

/-- The row with the fields written. -/
def UserFields.write (fields : UserFields) (now : ℤ) (row : UserRow) : UserRow :=
  { row with
    displayName := cStr fields.displayName
    role := userRoleToString fields.role
    enabled := fields.enabled
    updatedAt := now }

/-- The request gets as far as writing the fields, to the row of the user. -/
structure Reached (r : UserRequest) (s : UserStore) (userId : ℤ) (j : Json) (row : UserRow)
    (fields : UserFields) : Prop where
  userId_eq : r.userId = some userId
  body_eq : r.body = some j
  found : s.users.find userId = some row
  read : readUserUpdate (userInfo (userId, row)) j =
    some (fields.displayName, fields.role, fields.enabled)

variable {sha256 : List UInt8 → List UInt8} {run : UserUpdateRun} {r : UserRequest} {s : UserStore}

theorem handleUpdateUser_reached {userId : ℤ} {j : Json} {row : UserRow} {fields : UserFields}
    (h : Reached r s userId j row fields) (hdone : run.updateDone = true) :
    handleUpdateUser sha256 run r s =
      updatePassword sha256 run userId j
        { users := s.users.modify userId (fields.write run.now) } := by
  have hget : s.getUser userId = some (userInfo (userId, row)) := by
    rw [UserStore.getUser, h.found, Option.map_some]
  simp only [handleUpdateUser, h.userId_eq, h.body_eq, hget, h.read, UserStore.updateUser, hdone,
    h.found, if_true, Option.isSome_some]
  rfl

/-- **A request that does not get so far** changes nothing and is not accepted. -/
theorem handleUpdateUser_unreached
    (h : ¬ ((∃ userId j row fields, Reached r s userId j row fields) ∧ run.updateDone = true)) :
    (handleUpdateUser sha256 run r s).1 = s ∧ (handleUpdateUser sha256 run r s).2 ≠ 200 := by
  unfold handleUpdateUser
  split
  · exact ⟨rfl, by simp⟩
  · exact ⟨rfl, by simp⟩
  · next userId j hid hbody =>
      split
      · exact ⟨rfl, by simp⟩
      · next existing hget =>
          obtain ⟨row, hfound, rfl⟩ := Option.map_eq_some_iff.mp hget
          split
          · exact ⟨rfl, by simp⟩
          · next displayName role enabled hread =>
              have hnot : run.updateDone = false := by
                rw [← Bool.not_eq_true]
                intro hdone
                exact h ⟨⟨userId, j, row, ⟨displayName, role, enabled⟩, hid, hbody, hfound, hread⟩,
                  hdone⟩
              simp [UserStore.updateUser, hnot]

/-! ### The password -/

/-- The password is a reason to refuse the request: no string, or too short. -/
def RefusesPassword (j : Json) : Prop :=
  ∃ v ∈ j.member "password", ∀ password, v = .str password →
    password ≠ "" ∧ password.utf8ByteSize < 6

/-- The password a body asks for; an empty one asks for none. -/
def askedPassword (j : Json) : Option String :=
  ((j.member "password").bind Json.getStr).filter (· ≠ "")

theorem updatePassword_refused (userId : ℤ) {j : Json} (h : RefusesPassword j) :
    updatePassword sha256 run userId j s = (s, 400) := by
  obtain ⟨v, hv, hshort⟩ := h
  rw [updatePassword, Option.mem_def.mp hv]
  cases v with
  | str password =>
      obtain ⟨hne, hsize⟩ := hshort password rfl
      simp [Json.getStr, hne, hsize]
  | null | bool | num | arr | obj => rfl

theorem updatePassword_accepted (userId : ℤ) {j : Json} (h : ¬ RefusesPassword j) :
    updatePassword sha256 run userId j s =
      (match askedPassword j with
        | none => s
        | some password =>
            (s.changePassword sha256 userId password run.salt run.later run.changeDone).1, 200) := by
  cases hv : j.member "password" with
  | none => simp [updatePassword, askedPassword, hv]
  | some v =>
      cases v with
      | str password =>
          by_cases hempty : password = ""
          · simp [updatePassword, askedPassword, hv, Json.getStr, hempty, Option.filter]
          · have hlong : ¬ password.utf8ByteSize < 6 := fun hsize =>
              h ⟨.str password, hv, fun p hp => by
                obtain rfl := Json.str.inj hp
                exact ⟨hempty, hsize⟩⟩
            simp [updatePassword, askedPassword, hv, Json.getStr, hempty, hlong, Option.filter]
      | null | bool | num | arr | obj => exact absurd ⟨_, hv, fun _ hp => by cases hp⟩ h

/-! ### Refused or carried out -/

/-- What the body says of the user is so: the fields it has, and the password it asks for. -/
def UserAsAsked (sha256 : List UInt8 → List UInt8) (j : Json) (row : UserRow) : Prop :=
  (∀ v ∈ j.member "display_name", v = .str row.displayName) ∧
    (∀ v ∈ j.member "role", v = .str row.role) ∧
    (∀ v ∈ j.member "enabled", v = .bool row.enabled) ∧
    ∀ password ∈ askedPassword j, row.password = hashPassword sha256 password row.salt

/-- A refused request changes nothing, and after an accepted one everything is as asked. -/
def UserRequestKept (sha256 : List UInt8 → List UInt8) (run : UserUpdateRun) (r : UserRequest)
    (s : UserStore) : Prop :=
  (400 ≤ (handleUpdateUser sha256 run r s).2 ∧ (handleUpdateUser sha256 run r s).2 < 500 →
      (handleUpdateUser sha256 run r s).1 = s) ∧
    ((handleUpdateUser sha256 run r s).2 = 200 →
      ∀ userId ∈ r.userId, ∀ j ∈ r.body, ∃ row,
        (handleUpdateUser sha256 run r s).1.users.find userId = some row ∧
          UserAsAsked sha256 j row)

/-- What a request that gets as far as writing must be. -/
structure UserRequestSound (sha256 : List UInt8 → List UInt8) (run : UserUpdateRun) (j : Json)
    (row : UserRow) (fields : UserFields) : Prop where
  /-- A password that is refused comes with fields that the row has already. -/
  refused : RefusesPassword j → fields.write run.now row = row
  /-- The name given has no NUL. -/
  displayName : ¬ RefusesPassword j →
    ∀ name, j.member "display_name" = some (.str name) → '\x00' ∉ name.toList
  /-- The role given is one there is. -/
  role : ¬ RefusesPassword j →
    ∀ name, j.member "role" = some (.str name) → name ∈ ["admin", "operator", "viewer"]
  /-- The password asked for is written, or is the user's already. -/
  password : ¬ RefusesPassword j → ∀ password ∈ askedPassword j,
    run.changeDone = true ∨ row.password = hashPassword sha256 password row.salt

theorem value_member {α : Type} {get : Json → Option α} {key : String} {default a : α} {j v : Json}
    (h : j.value get key default = some a) (hv : j.member key = some v) : get v = some a := by
  cases j with
  | obj members =>
      simp only [Json.value, Json.member] at h hv
      rwa [hv] at h
  | null | bool | num | str | arr => cases hv

theorem getStr_eq_some {v : Json} {s : String} : v.getStr = some s ↔ v = .str s := by
  cases v <;> simp [Json.getStr]

theorem getBool_eq_some {v : Json} {b : Bool} : v.getBool = some b ↔ v = .bool b := by
  cases v <;> simp [Json.getBool]

theorem toString_parseUserRole_iff (name : String) :
    userRoleToString (parseUserRole name) = name ↔ name ∈ ["admin", "operator", "viewer"] := by
  constructor
  · intro h
    rw [← h]
    cases parseUserRole name <;> decide
  · intro h
    simp only [List.mem_cons, List.not_mem_nil, or_false] at h
    rcases h with rfl | rfl | rfl <;> decide

/-- What the fields are that are read from a body. -/
theorem readUserUpdate_eq_some {existing : UserInfo} {j : Json} {displayName : String}
    {role : UserRole} {enabled : Bool}
    (h : readUserUpdate existing j = some (displayName, role, enabled)) :
    (∀ v ∈ j.member "display_name", v = .str displayName) ∧
      (∀ v ∈ j.member "role", ∃ name, v = .str name ∧ parseUserRole name = role) ∧
      ∀ v ∈ j.member "enabled", v = .bool enabled := by
  simp only [readUserUpdate, Option.bind_eq_bind, Option.bind_eq_some_iff, Option.pure_def,
    Option.some.injEq, Prod.mk.injEq] at h
  obtain ⟨_, hname, roleName, hrole, _, henabled, rfl, rfl, rfl⟩ := h
  refine ⟨fun v hv => ?_, fun v hv => ⟨roleName, ?_, rfl⟩, fun v hv => ?_⟩
  · exact getStr_eq_some.mp (value_member hname hv)
  · exact getStr_eq_some.mp (value_member hrole hv)
  · exact getBool_eq_some.mp (value_member henabled hv)

/-- The row with the password asked for, as far as that is written. -/
def withPassword (sha256 : List UInt8 → List UInt8) (run : UserUpdateRun) (j : Json)
    (row : UserRow) : UserRow :=
  match askedPassword j with
  | none => row
  | some password =>
      if run.changeDone then
        { row with
          password := hashPassword sha256 password run.salt
          salt := run.salt
          updatedAt := run.later }
      else row

section
variable {userId : ℤ} {j : Json} {row : UserRow} {fields : UserFields}

/-- The row an accepted request leaves. -/
theorem handleUpdateUser_accepted (h : Reached r s userId j row fields)
    (hdone : run.updateDone = true) (haccepted : ¬ RefusesPassword j) :
    (handleUpdateUser sha256 run r s).2 = 200 ∧
      (handleUpdateUser sha256 run r s).1.users.find userId =
        some (withPassword sha256 run j (fields.write run.now row)) := by
  have hfound := s.users.find_modify h.found (fields.write run.now)
  rw [handleUpdateUser_reached h hdone, updatePassword_accepted userId haccepted, withPassword]
  refine ⟨rfl, ?_⟩
  cases askedPassword j with
  | none => exact hfound
  | some password =>
      cases hchange : run.changeDone with
      | false => simpa [UserStore.changePassword] using hfound
      | true => simpa [UserStore.changePassword] using Table.find_modify hfound _

theorem withPassword_fields (sha256 : List UInt8 → List UInt8) (run : UserUpdateRun) (j : Json)
    (row : UserRow) :
    (withPassword sha256 run j row).displayName = row.displayName ∧
      (withPassword sha256 run j row).role = row.role ∧
      (withPassword sha256 run j row).enabled = row.enabled := by
  unfold withPassword
  split
  · exact ⟨rfl, rfl, rfl⟩
  · split <;> exact ⟨rfl, rfl, rfl⟩

/-- The password asked for is the row's where it was written, or was the row's before. -/
theorem withPassword_password (row : UserRow) :
    (∀ password ∈ askedPassword j, (withPassword sha256 run j row).password =
        hashPassword sha256 password (withPassword sha256 run j row).salt) ↔
      ∀ password ∈ askedPassword j,
        run.changeDone = true ∨ row.password = hashPassword sha256 password row.salt := by
  refine forall₂_congr fun password hasked => ?_
  rw [withPassword, Option.mem_def.mp hasked]
  cases run.changeDone <;> simp

/-- The row an accepted request leaves is as asked exactly where the request is sound. -/
theorem userAsAsked_iff (h : Reached r s userId j row fields) :
    UserAsAsked sha256 j (withPassword sha256 run j (fields.write run.now row)) ↔
      (∀ name, j.member "display_name" = some (.str name) → '\x00' ∉ name.toList) ∧
      (∀ name, j.member "role" = some (.str name) → name ∈ ["admin", "operator", "viewer"]) ∧
      ∀ password ∈ askedPassword j,
        run.changeDone = true ∨ row.password = hashPassword sha256 password row.salt := by
  obtain ⟨hname, hrole, henabled⟩ := readUserUpdate_eq_some h.read
  obtain ⟨hname', hrole', henabled'⟩ := withPassword_fields sha256 run j (fields.write run.now row)
  rw [UserAsAsked, withPassword_password, hname', hrole', henabled']
  refine and_congr ?_ (and_congr ?_ ((and_iff_right henabled).trans Iff.rfl))
  · constructor
    · intro hall name hmember
      rw [← cStr_eq_self_iff]
      obtain rfl := Json.str.inj (hname _ hmember)
      exact (Json.str.inj (hall _ hmember)).symm
    · intro hall v hv
      obtain rfl := hname v hv
      exact congrArg Json.str ((cStr_eq_self_iff _).mpr (hall _ hv)).symm
  · constructor
    · intro hall name hmember
      rw [← toString_parseUserRole_iff]
      obtain ⟨_, hgiven, hparsed⟩ := hrole _ hmember
      obtain rfl := Json.str.inj hgiven
      rw [hparsed]
      exact (Json.str.inj (hall _ hmember)).symm
    · intro hall v hv
      obtain ⟨name, rfl, hparsed⟩ := hrole v hv
      have hkept := (toString_parseUserRole_iff name).mpr (hall name hv)
      rw [hparsed] at hkept
      exact congrArg Json.str hkept.symm

theorem userRequestKept_reached (h : Reached r s userId j row fields)
    (hdone : run.updateDone = true) :
    UserRequestKept sha256 run r s ↔ UserRequestSound sha256 run j row fields := by
  by_cases hrefuses : RefusesPassword j
  · have hafter : handleUpdateUser sha256 run r s =
        ({ users := s.users.modify userId (fields.write run.now) }, 400) :=
      (handleUpdateUser_reached h hdone).trans (updatePassword_refused userId hrefuses)
    have hsame : ({ users := s.users.modify userId (fields.write run.now) } : UserStore) = s ↔
        fields.write run.now row = row := by
      rw [← Table.modify_eq_self_iff h.found]
      exact ⟨congrArg UserStore.users, fun husers => congrArg UserStore.mk husers⟩
    rw [UserRequestKept, hafter, hsame]
    constructor
    · rintro ⟨hunchanged, -⟩
      exact ⟨fun _ => hunchanged ⟨by simp, by simp⟩, absurd hrefuses, absurd hrefuses,
        absurd hrefuses⟩
    · intro hsound
      exact ⟨fun _ => hsound.refused hrefuses, fun h => absurd h (by simp)⟩
  · obtain ⟨hstatus, hfound⟩ : (handleUpdateUser sha256 run r s).2 = 200 ∧ _ :=
      handleUpdateUser_accepted h hdone hrefuses
    have hasked : UserRequestKept sha256 run r s ↔
        UserAsAsked sha256 j (withPassword sha256 run j (fields.write run.now row)) := by
      rw [UserRequestKept, hstatus, h.userId_eq, h.body_eq]
      constructor
      · rintro ⟨-, hkept⟩
        obtain ⟨row', hrow', hkept⟩ := hkept rfl userId rfl j rfl
        rw [hfound] at hrow'
        exact Option.some.inj hrow' ▸ hkept
      · intro hkept
        refine ⟨fun hclient => absurd hclient.1 (by decide), fun _ userId' hid j' hj => ?_⟩
        obtain rfl := Option.some.inj hid
        obtain rfl := Option.some.inj hj
        exact ⟨_, hfound, hkept⟩
    rw [hasked, userAsAsked_iff h]
    constructor
    · rintro ⟨hname, hrole, hpassword⟩
      exact ⟨fun h => absurd h hrefuses, fun _ => hname, fun _ => hrole, fun _ => hpassword⟩
    · intro hsound
      exact ⟨hsound.displayName hrefuses, hsound.role hrefuses, hsound.password hrefuses⟩

end

/-- **A request is refused with nothing changed, or carried out whole**, exactly where it is sound
as far as it gets. -/
theorem userRequestKept_iff (sha256 : List UInt8 → List UInt8) (run : UserUpdateRun)
    (r : UserRequest) (s : UserStore) :
    UserRequestKept sha256 run r s ↔
      ∀ userId j row fields, Reached r s userId j row fields → run.updateDone = true →
        UserRequestSound sha256 run j row fields := by
  constructor
  · intro hkept userId j row fields h hdone
    exact (userRequestKept_reached h hdone).mp hkept
  · intro hsound
    by_cases hreached : (∃ userId j row fields, Reached r s userId j row fields) ∧
        run.updateDone = true
    · obtain ⟨⟨userId, j, row, fields, h⟩, hdone⟩ := hreached
      exact (userRequestKept_reached h hdone).mpr (hsound userId j row fields h hdone)
    · obtain ⟨hsame, hstatus⟩ : (handleUpdateUser sha256 run r s).1 = s ∧ _ :=
        handleUpdateUser_unreached hreached
      exact ⟨fun _ => hsame, fun h => absurd h hstatus⟩

end LoongNvr.Network
