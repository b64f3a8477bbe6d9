import LoongNvr.Rules.RuleStore
import LoongNvr.Support.Runs

/-!
# Auth — UserStore

The SQLite store of the user accounts.  A password is kept as a hash with a salt; the digest
function is a parameter, `sha256`.  The clock (`now`, in seconds) and the salts are arguments, and
so is what `sqlite3_step` answers where the code asks: `done` for a statement that writes,
`roleRead` and `countRead` for the two queries of `deleteUser`.

* `createUser`, `updateUser`, `changePassword`, `deleteUser`: the calls that change an account.
* `UserOp`, `step`: such a call, with its arguments and outcomes.
* `Keeps`: a call that does not take the last enabled admin away.
* `hasUsableAdmin_step`: a call keeps an enabled admin exactly when it is such a call.
* `usableAdmin_iff`: the runs through all of which there is an enabled admin.
-/

namespace LoongNvr.Auth
open Support
open LoongNvr.Rules (cStr)

inductive UserRole
  | admin
  | operator
  | viewer
  deriving DecidableEq, Repr

def userRoleToString : UserRole → String
  | .admin => "admin"
  | .operator => "operator"
  | .viewer => "viewer"

def parseUserRole (roleStr : String) : UserRole :=
  if roleStr = "admin" then .admin
  else if roleStr = "operator" then .operator
  else .viewer

@[simp] theorem parseUserRole_toString (role : UserRole) :
    parseUserRole (userRoleToString role) = role := by
  cases role <;> decide

/-- User account information. -/
structure UserInfo where
  id : ℤ := 0
  username : String := ""
  displayName : String := ""
  role : UserRole := .viewer
  enabled : Bool := true
  createdAt : ℤ := 0
  updatedAt : ℤ := 0
  lastLogin : ℤ := 0
  deriving DecidableEq, Repr

/-- A row of `users`, its id apart. -/
structure UserRow where
  username : String
  password : String
  salt : String
  displayName : String := ""
  role : String := "viewer"
  enabled : Bool := true
  mustChangePassword : Bool := false
  createdAt : ℤ
  updatedAt : ℤ
  lastLogin : ℤ := 0
  deriving DecidableEq, Repr

/-- The database. -/
structure UserStore where
  users : Table UserRow := .empty

def kDefaultAdminUser : String := "admin"

def kDefaultAdminPass : String := "admin123"

def kDefaultAdminName : String := "Administrator"

/-- The columns `GetUser`, `GetUserByName` and `ListUsers` read. -/
def userInfo (row : ℤ × UserRow) : UserInfo where
  id := row.1
  username := row.2.username
  displayName := row.2.displayName
  role := parseUserRole row.2.role
  enabled := row.2.enabled
  createdAt := row.2.createdAt
  updatedAt := row.2.updatedAt
  lastLogin := row.2.lastLogin

def kHexChars : List Char := "0123456789abcdef".toList

/-- Bytes in hexadecimal. -/
def hex (bytes : List UInt8) : String :=
  String.ofList (bytes.flatMap fun b : UInt8 =>
    [kHexChars.getD (b >>> 4 &&& 0x0f).toNat '0', kHexChars.getD (b &&& 0x0f).toNat '0'])

def hashPassword (sha256 : List UInt8 → List UInt8) (password salt : String) : String :=
  hex (sha256 (salt ++ password).toUTF8.toList)

namespace UserStore

variable (sha256 : List UInt8 → List UInt8)

def createDefaultAdmin (salt : String) (now : ℤ) (done : Bool) (s : UserStore) : UserStore :=
  if s.users.rows.length > 0 then s
  else if done then
    { users := s.users.insert
        { username := kDefaultAdminUser
          password := hashPassword sha256 kDefaultAdminPass salt
          salt := salt
          displayName := kDefaultAdminName
          role := "admin"
          enabled := true
          mustChangePassword := true
          createdAt := now
          updatedAt := now } }
  else s

/-- `Open` on an empty database.  It succeeds whether or not the default account was written. -/
def openEmpty (salt : String) (now : ℤ) (done : Bool) : UserStore :=
  createDefaultAdmin sha256 salt now done {}

/-- The new user's id, or -1.  The statement fails on a username that is already there. -/
def createUser (username password displayName : String) (role : UserRole) (salt : String)
    (now : ℤ) (done : Bool) (s : UserStore) : UserStore × ℤ :=
  if done ∧ ∀ row ∈ s.users.rows, row.2.username ≠ cStr username then
    ({ users := s.users.insert
        { username := cStr username
          password := hashPassword sha256 password salt
          salt := salt
          displayName := cStr displayName
          role := userRoleToString role
          enabled := true
          createdAt := now
          updatedAt := now } }, s.users.seq + 1)
  else (s, -1)

def updateUser (userId : ℤ) (displayName : String) (role : UserRole) (enabled : Bool) (now : ℤ)
    (done : Bool) (s : UserStore) : UserStore × Bool :=
  if done then
    ({ users := s.users.modify userId fun row =>
        { row with
          displayName := cStr displayName
          role := userRoleToString role
          enabled := enabled
          updatedAt := now } }, (s.users.find userId).isSome)
  else (s, false)

def changePassword (userId : ℤ) (newPassword : String) (salt : String) (now : ℤ) (done : Bool)
    (s : UserStore) : UserStore × Bool :=
  if done then
    ({ users := s.users.modify userId fun row =>
        { row with
          password := hashPassword sha256 newPassword salt
          salt := salt
          updatedAt := now } }, (s.users.find userId).isSome)
  else (s, false)

/-- `SELECT COUNT(*) FROM users WHERE role = 'admin'` -/
def adminCount (s : UserStore) : ℕ := (s.users.select fun row => row.2.role = "admin").length

/-- The role `deleteUser` reads; a row that is not read counts as a viewer's. -/
def roleOf (userId : ℤ) (roleRead : Bool) (s : UserStore) : UserRole :=
  match roleRead, s.users.find userId with
  | true, some row => parseUserRole row.role
  | _, _ => .viewer

/-- Whether `deleteUser` refuses: the user is an admin, and at most one is counted. -/
def refusesDelete (userId : ℤ) (roleRead countRead : Bool) (s : UserStore) : Bool :=
  s.roleOf userId roleRead = .admin && (if countRead then s.adminCount else 0) ≤ 1

def deleteUser (userId : ℤ) (roleRead countRead done : Bool) (s : UserStore) : UserStore × Bool :=
  if s.refusesDelete userId roleRead countRead then (s, false)
  else if done then ({ users := s.users.delete userId }, (s.users.find userId).isSome)
  else (s, false)

def getUser (userId : ℤ) (s : UserStore) : Option UserInfo :=
  (s.users.find userId).map fun row => userInfo (userId, row)

end UserStore

/-! ### Calls -/

/-- A call that changes an account, with the clock, the salt and the outcomes of its
statements. -/
inductive UserOp
  | createUser (username password displayName : String) (role : UserRole) (salt : String)
      (now : ℤ) (done : Bool)
  | updateUser (userId : ℤ) (displayName : String) (role : UserRole) (enabled : Bool) (now : ℤ)
      (done : Bool)
  | changePassword (userId : ℤ) (newPassword salt : String) (now : ℤ) (done : Bool)
  | deleteUser (userId : ℤ) (roleRead countRead done : Bool)

namespace UserStore

def step (sha256 : List UInt8 → List UInt8) (s : UserStore) : UserOp → UserStore
  | .createUser username password displayName role salt now done =>
      (s.createUser sha256 username password displayName role salt now done).1
  | .updateUser userId displayName role enabled now done =>
      (s.updateUser userId displayName role enabled now done).1
  | .changePassword userId newPassword salt now done =>
      (s.changePassword sha256 userId newPassword salt now done).1
  | .deleteUser userId roleRead countRead done =>
      (s.deleteUser userId roleRead countRead done).1

end UserStore

end LoongNvr.Auth

/-! ### An administrator who can log in

Whether there is always an administrator who can log in.  `DeleteUser` refuses to delete the last
admin it counts, enabled or not; `UpdateUser` changes role and enabled flag of any account.
-/

namespace LoongNvr.Auth
open Support

/-- An account that is an admin's and enabled. -/
def Usable (row : ℤ × UserRow) : Prop := row.2.role = "admin" ∧ row.2.enabled = true

instance (row : ℤ × UserRow) : Decidable (Usable row) :=
  inferInstanceAs (Decidable (_ ∧ _))

namespace UserStore

variable {sha256 : List UInt8 → List UInt8}

/-- There is at least one user with role admin and `enabled = 1`. -/
def HasUsableAdmin (s : UserStore) : Prop := ∃ row ∈ s.users.rows, Usable row

/-- Of the enabled admins, `userId` is the only one. -/
def OnlyUsable (s : UserStore) (userId : ℤ) : Prop :=
  ∀ row ∈ s.users.rows, Usable row → row.1 = userId

/-- The call is carried out only as far as it leaves an enabled admin: the only one stays admin
and enabled when updated, and is deleted only if the guard refuses or the statement fails. -/
def Keeps (s : UserStore) : UserOp → Prop
  | .updateUser userId _ role enabled _ done =>
      done = true → s.OnlyUsable userId → role = .admin ∧ enabled = true
  | .deleteUser userId roleRead countRead done =>
      done = true → s.OnlyUsable userId → s.refusesDelete userId roleRead countRead = true
  | _ => True

/-! ### One call -/

theorem hasUsableAdmin_createUser {s : UserStore} (hs : s.HasUsableAdmin)
    (username password displayName : String) (role : UserRole) (salt : String) (now : ℤ)
    (done : Bool) :
    (s.createUser sha256 username password displayName role salt now done).1.HasUsableAdmin
    := by
  obtain ⟨row, hrow, husable⟩ := hs
  rw [createUser]
  split
  · exact ⟨row, List.mem_append_left _ hrow, husable⟩
  · exact ⟨row, hrow, husable⟩

/-- A change that keeps role and flag of every account keeps the enabled admins. -/
theorem hasUsableAdmin_modify {s : UserStore} (hs : s.HasUsableAdmin) (userId : ℤ)
    {f : UserRow → UserRow} (hrole : ∀ r, (f r).role = r.role)
    (henabled : ∀ r, (f r).enabled = r.enabled) :
    HasUsableAdmin { users := s.users.modify userId f } := by
  obtain ⟨row, hrow, husable⟩ := hs
  refine ⟨Table.modifyRow userId f row, List.mem_map_of_mem hrow, ?_⟩
  rw [Table.modifyRow]
  split
  · exact ⟨(hrole _).trans husable.1, (henabled _).trans husable.2⟩
  · exact husable

theorem hasUsableAdmin_changePassword {s : UserStore} (hs : s.HasUsableAdmin) (userId : ℤ)
    (newPassword salt : String) (now : ℤ) (done : Bool) :
    (s.changePassword sha256 userId newPassword salt now done).1.HasUsableAdmin := by
  rw [changePassword]
  split
  · exact hasUsableAdmin_modify hs userId (fun _ => rfl) fun _ => rfl
  · exact hs

/-- Some enabled admin is not `userId`, or `userId` is the only one. -/
theorem exists_other {s : UserStore} {userId : ℤ} (h : ¬ s.OnlyUsable userId) :
    ∃ row ∈ s.users.rows, Usable row ∧ row.1 ≠ userId := by
  simpa only [OnlyUsable, not_forall, exists_prop] using h

theorem usable_role_iff {role : UserRole} : userRoleToString role = "admin" ↔ role = .admin := by
  cases role <;> decide

theorem hasUsableAdmin_updateUser {s : UserStore} (hs : s.HasUsableAdmin) (userId : ℤ)
    (displayName : String) (role : UserRole) (enabled : Bool) (now : ℤ) (done : Bool) :
    (s.updateUser userId displayName role enabled now done).1.HasUsableAdmin ↔
      s.Keeps (.updateUser userId displayName role enabled now done) := by
  cases done with
  | false => simpa [updateUser, Keeps] using hs
  | true =>
      simp only [updateUser, Keeps, if_true, forall_const]
      constructor
      · rintro ⟨new, hnew, husable⟩ honly
        obtain ⟨row, hrow, rfl⟩ := Table.mem_modify_rows.mp hnew
        by_cases e : row.1 = userId
        · rw [Table.modifyRow, if_pos e] at husable
          exact ⟨usable_role_iff.mp husable.1, husable.2⟩
        · rw [Table.modifyRow, if_neg e] at husable
          exact absurd (honly row hrow husable) e
      · intro hkeep
        by_cases honly : s.OnlyUsable userId
        · -- the only one, which stays what it is
          obtain ⟨row, hrow, husable⟩ := hs
          obtain ⟨hrole, henabled⟩ := hkeep honly
          refine ⟨_, List.mem_map_of_mem hrow, ?_⟩
          rw [Table.modifyRow, if_pos (honly row hrow husable)]
          exact ⟨usable_role_iff.mpr hrole, henabled⟩
        · -- another one, which the statement does not touch
          obtain ⟨row, hrow, husable, hne⟩ := exists_other honly
          refine ⟨row, Table.mem_modify_rows.mpr ⟨row, hrow, ?_⟩, husable⟩
          rw [Table.modifyRow, if_neg hne]

theorem hasUsableAdmin_deleteUser {s : UserStore} (hs : s.HasUsableAdmin) (userId : ℤ)
    (roleRead countRead done : Bool) :
    (s.deleteUser userId roleRead countRead done).1.HasUsableAdmin ↔
      s.Keeps (.deleteUser userId roleRead countRead done) := by
  rw [deleteUser, Keeps]
  cases hrefuse : s.refusesDelete userId roleRead countRead with
  | true => simpa using hs
  | false =>
      cases done with
      | false => simpa using hs
      | true =>
          simp only [Bool.false_eq_true, if_false, if_true, forall_const, imp_false]
          constructor
          · rintro ⟨row, hrow, husable⟩ honly
            obtain ⟨hrow, hne⟩ := List.mem_filter.mp hrow
            exact absurd (honly row hrow husable) (by simpa using hne)
          · intro honly
            obtain ⟨row, hrow, husable, hne⟩ := exists_other honly
            exact ⟨row, List.mem_filter.mpr ⟨hrow, by simpa using hne⟩, husable⟩

/-- **One call.**  An enabled admin is left exactly when the call keeps one. -/
theorem hasUsableAdmin_step {s : UserStore} (hs : s.HasUsableAdmin) (op : UserOp) :
    (step sha256 s op).HasUsableAdmin ↔ s.Keeps op := by
  cases op with
  | createUser username password displayName role salt now done =>
      exact iff_of_true (hasUsableAdmin_createUser hs username password displayName role salt now
        done) trivial
  | updateUser userId displayName role enabled now done =>
      exact hasUsableAdmin_updateUser hs userId displayName role enabled now done
  | changePassword userId newPassword salt now done =>
      exact iff_of_true (hasUsableAdmin_changePassword hs userId newPassword salt now done) trivial
  | deleteUser userId roleRead countRead done =>
      exact hasUsableAdmin_deleteUser hs userId roleRead countRead done

/-! ### Runs -/

theorem hasUsableAdmin_openEmpty (salt : String) (now : ℤ) (done : Bool) :
    (openEmpty sha256 salt now done).HasUsableAdmin ↔ done = true := by
  cases done with
  | false =>
      refine iff_of_false ?_ Bool.false_ne_true
      rintro ⟨row, hrow, -⟩
      exact absurd hrow List.not_mem_nil
  | true => exact iff_of_true ⟨_, List.mem_singleton_self _, rfl, rfl⟩ rfl

/-- **There is always a usable administrator** exactly when the default account was written and
no call takes the last enabled admin away. -/
theorem usableAdmin_iff (sha256 : List UInt8 → List UInt8) (salt : String) (now : ℤ)
    (done : Bool) (ops : List UserOp) :
    Along (step sha256) HasUsableAdmin (openEmpty sha256 salt now done) ops ↔
      done = true ∧ EveryStep (step sha256) Keeps (openEmpty sha256 salt now done)
        ops := by
  have hstep : ∀ s op, HasUsableAdmin s → (HasUsableAdmin (step sha256 s op) ↔ Keeps s op) :=
    fun _ op hs => hasUsableAdmin_step hs op
  have hopen : (openEmpty sha256 salt now done).HasUsableAdmin ↔ done = true :=
    hasUsableAdmin_openEmpty salt now done
  constructor
  · intro h
    exact ⟨hopen.mp h.first, (along_iff_everyStep hstep h.first).mp h⟩
  · rintro ⟨hdone, h⟩
    exact (along_iff_everyStep hstep (hopen.mpr hdone)).mpr h

/-- The digest of the default password with the salt below. -/
def defaultDigest : List UInt8 :=
  [149, 251, 73, 215, 140, 253, 247, 179, 48, 128, 191, 106, 218, 232, 190, 67,
    116, 72, 65, 242, 108, 187, 199, 103, 218, 37, 14, 14, 46, 2, 221, 221]

/-- The default admin, the only account, made a viewer. -/
theorem usableAdmin_refuted :
    ¬ Along (step fun _ => defaultDigest) HasUsableAdmin
      (openEmpty (fun _ => defaultDigest) "000102030405060708090a0b0c0d0e0f" 1700000000 true)
      [.updateUser 1 "Administrator" .viewer true 1700000060 true] := by
  rintro ⟨-, row, hrow, hrole, -⟩
  cases List.mem_singleton.mp hrow
  exact absurd hrole (by decide)

end UserStore

end LoongNvr.Auth
