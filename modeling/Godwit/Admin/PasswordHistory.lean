import Mathlib.Data.Int.ConditionallyCompleteOrder
import Mathlib.Order.Monotone.Basic
import Godwit.Admin.AccountStore
import Godwit.Lib.OrderBy

set_option autoImplicit false

/-! # The table `password_history` (`godwit-db/src/repositories/password_history.rs`)

The statements of `PasswordHistoryRepository` on the rows of the table. The database gives every row its id and
the time of its insertion; a later row has a later time, and an insertion fails when the id is taken. -/

namespace Godwit

/-- A row of `password_history`. -/
structure PasswordHistoryRow where
  id : Uuid
  userId : Uuid
  passwordHash : String
  createdAt : Timestamp
  deriving DecidableEq, Repr

/-- The `password_history` table. -/
abbrev PasswordHistoryTable := Table fun row : PasswordHistoryRow => row.id

/-- `ORDER BY created_at DESC, id DESC`. -/
def PasswordHistoryRow.newer (row row' : PasswordHistoryRow) : Prop :=
  row'.createdAt < row.createdAt ∨ row'.createdAt = row.createdAt ∧ row'.id ≤ row.id

instance : DecidableRel PasswordHistoryRow.newer := fun row row' =>
  inferInstanceAs (Decidable (row'.createdAt < row.createdAt ∨ row'.createdAt = row.createdAt ∧ row'.id ≤ row.id))

/-- `gen_random_uuid()` and `NOW()` for the rows that are inserted, one after another. -/
structure RowDefaults where
  id : Nat → Uuid
  createdAt : Nat → Timestamp
  increasing : StrictMono createdAt

/-- The table after some insertions: it holds no row of a later one. -/
structure PasswordHistory (defaults : RowDefaults) where
  table : PasswordHistoryTable
  pushed : Nat
  older : ∀ row ∈ table, row.createdAt < defaults.createdAt pushed

namespace PasswordHistory

variable {defaults : RowDefaults}

/-- The rows of a user, the newest first. -/
def ofUser (history : PasswordHistory defaults) (userId : Uuid) : List PasswordHistoryRow :=
  orderBy PasswordHistoryRow.newer (history.table.rows.filter fun row => row.userId = userId)

/-- `get_last_n`. -/
def getLastN (history : PasswordHistory defaults) (userId : Uuid) (n : Nat) : List String :=
  ((history.ofUser userId).take n).map PasswordHistoryRow.passwordHash

/-- The hashes of every user, the newest first. -/
def lists (history : PasswordHistory defaults) (userId : Uuid) : List String :=
  (history.ofUser userId).map PasswordHistoryRow.passwordHash

/-- The row that the next insertion adds. -/
def nextRow (history : PasswordHistory defaults) (userId : Uuid) (hash : String) : PasswordHistoryRow where
  id := defaults.id history.pushed
  userId := userId
  passwordHash := hash
  createdAt := defaults.createdAt history.pushed

/-- `PasswordHistoryRepository::push`: the row gets the defaults of the next insertion. -/
def push (history : PasswordHistory defaults) (userId : Uuid) (hash : String) : PasswordHistory defaults where
  table := history.table.insert (history.nextRow userId hash)
  pushed := history.pushed + 1
  older := by
    intro row hrow
    have hlater : defaults.createdAt history.pushed < defaults.createdAt (history.pushed + 1) :=
      defaults.increasing (Nat.lt_succ_self _)
    rcases Table.mem_of_insert hrow with hrow | rfl
    · exact (history.older row hrow).trans hlater
    · exact hlater

/-- Rows are deleted. -/
def delete (history : PasswordHistory defaults) (p : PasswordHistoryRow → Bool) : PasswordHistory defaults where
  table := history.table.delete p
  pushed := history.pushed
  older row hrow := history.older row (Table.mem_delete.1 hrow).1

/-- `purge_older_than`. -/
def purgeOlderThan (history : PasswordHistory defaults) (userId : Uuid) (keep : Nat) : PasswordHistory defaults :=
  history.delete fun row =>
    row.userId = userId && !((history.ofUser userId).take keep).any fun kept => kept.id = row.id

end PasswordHistory

/-! ## The world with the table -/

/-- The accounts with the rows of `password_history`, which stand for the lists of `accounts`. -/
structure AccountTables (defaults : RowDefaults) where
  accounts : AccountWorld
  history : PasswordHistory defaults

variable {defaults : RowDefaults}

/-- The accounts with the lists that the rows make. -/
def AccountTables.view (s : AccountTables defaults) : AccountWorld := { s.accounts with history := s.history.lists }

/-- The history answers its two statements, the account tables the others. -/
def AccountTables.answers (state : AuthState) (s : AccountTables defaults) : Environment AccountStore
  | .getLastPasswords userId n, fetched => FetchRow (fun hashes => hashes = s.history.getLastN userId n) fetched
  | .pushPassword userId hash, executed =>
    FetchRow (fun _ => s.history.table.find? (s.history.nextRow userId hash).id = none) executed
  | o, answer => s.accounts.answers state o answer

/-- What a step does to the rows of `password_history`. -/
def PasswordHistory.next (history : PasswordHistory defaults) : Step AccountStore → PasswordHistory defaults
  | ⟨.deleteUser id, .ok ()⟩ => history.delete fun row => row.userId = id
  | ⟨.pushPassword userId hash, .ok ()⟩ => history.push userId hash
  | ⟨.purgePasswords userId keep, .ok ()⟩ => history.purgeOlderThan userId keep
  | _ => history

/-- Both parts take the step. -/
def AccountTables.next (state : AuthState) (s : AccountTables defaults) (step : Step AccountStore) :
    AccountTables defaults :=
  ⟨s.accounts.next state step, s.history.next step⟩

/-- The runs in which every answer is one that the tables give. -/
abbrev accountTables (state : AuthState) (defaults : RowDefaults) : Monitor AccountStore where
  State := AccountTables defaults
  next := AccountTables.next state
  accepts s step := s.answers state step.op step.answer

end Godwit
