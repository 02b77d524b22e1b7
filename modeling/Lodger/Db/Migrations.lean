import Lodger.Lib.Except

namespace Lodger.Db

open Lodger.Lib

-- A database file: the tables with their rows, and the number in its header.
@[ext] structure Database (Content : Type) where
  content : Content
  userVersion : Int32
deriving DecidableEq

-- The statements of a migration run. A batch goes by its index in the list of migrations.
inductive Statement where
  | transaction
  | getUserVersion
  | executeBatch (n : Nat)
  | setUserVersion
  | commit
deriving DecidableEq

-- SQLite is not part of the repository. A batch runs inside the transaction and does not end it.
class Sqlite (Content : Type) where
  executeBatch : String → Database Content → Except String (Database Content)

open Sqlite

-- The header has 32 bits for the number. One that does not fit is stored as 0.
def storedVersion (n : Int) : Int32 :=
  if -2 ^ 31 ≤ n ∧ n < 2 ^ 31 then Int32.ofInt n else 0

-- Whether a statement fails for a reason outside the database: a lock, a full disk.
abbrev Outside := Statement → Option String

def Outside.check (out : Outside) (statement : Statement) : Except String Unit :=
  match out statement with
  | some e => .error e
  | none => .ok ()

section Migrate

variable {Content : Type} [Sqlite Content]

-- One round of the loop over the migrations.
def runMigration (out : Outside) (db : Database Content) (migration : String × Nat) :
    Except String (Database Content) :=
  (do out.check (.executeBatch migration.2)
      executeBatch migration.1 db).mapError fun e =>
    "migration " ++ toString (migration.2 + 1) ++ ": " ++ e

-- What happens in the transaction, up to its commit.
def runMigrations (out : Outside) (migrations : List String) (db : Database Content) :
    Except String (Database Content) := do
  out.check .transaction
  out.check .getUserVersion
  let done := db.userVersion.toInt
  if done < 0 then
    .error ("bad schema version " ++ toString done)
  else
    let done := done.toNat
    if migrations.length < done then
      .error ("the schema version is " ++ toString done ++ ", but this Lodger knows only " ++
        toString migrations.length ++ ": the database is from a newer Lodger")
    else
      let db ← (migrations.zipIdx.drop done).foldlM (runMigration out) db
      if 2 ^ 63 ≤ migrations.length then
        .error "out of range integral type conversion attempted"
      else
        out.check .setUserVersion
        out.check .commit
        return { db with userVersion := storedVersion migrations.length }

-- The result and the stored database. A transaction that is dropped rolls back.
def migrate (out : Outside) (migrations : List String) (db : Database Content) :
    Except String Unit × Database Content :=
  match runMigrations out migrations db with
  | .error e => (.error e, db)
  | .ok migrated => (.ok (), migrated)

-- The result of a list of batches, one after the other.
inductive Applied : Database Content → List String → Database Content → Prop where
  | nil (db) : Applied db [] db
  | cons {db next last sql rest} (hsql : executeBatch sql db = .ok next)
      (hrest : Applied next rest last) : Applied db (sql :: rest) last

-- A statement of the run fails.
def StatementFails (out : Outside) (migrations : List String) (db : Database Content) : Prop :=
  (∃ statement ∈ [Statement.transaction, .getUserVersion, .setUserVersion, .commit],
      out statement ≠ none) ∨
    ∃ (n : Nat) (sql : String), migrations[n]? = some sql ∧ db.userVersion.toInt ≤ n ∧
      (out (.executeBatch n) ≠ none ∨
        ∃ before e, Applied db ((migrations.take n).drop db.userVersion.toInt.toNat) before ∧
          executeBatch sql before = .error e)

-- What a batch does to the tables does not depend on the number in the header.
def Blind (Content : Type) [Sqlite Content] (sql : String) : Prop :=
  ∀ (content : Content) v w,
    (executeBatch sql ⟨content, v⟩).toOption.map Database.content =
      (executeBatch sql ⟨content, w⟩).toOption.map Database.content

end Migrate

section Applied

variable {Content : Type} [Sqlite Content]

theorem Applied.split {db last : Database Content} {sqls more : List String}
    (h : Applied db (sqls ++ more) last) :
    ∃ middle, Applied db sqls middle ∧ Applied middle more last := by
  induction sqls generalizing db with
  | nil => exact ⟨db, .nil db, h⟩
  | cons sql sqls ih =>
      cases h with
      | cons hsql hrest =>
          obtain ⟨middle, hsqls, hmore⟩ := ih hrest
          exact ⟨middle, .cons hsql hsqls, hmore⟩

theorem Applied.unique {db last other : Database Content} {sqls : List String}
    (h : Applied db sqls last) (hother : Applied db sqls other) : last = other := by
  induction h with
  | nil =>
      cases hother
      rfl
  | cons hsql _ ih =>
      cases hother with
      | cons hsql' hrest =>
          rw [hsql] at hsql'
          cases hsql'
          exact ih hrest

-- A list of batches stops at the first one that fails.
theorem not_applied_iff (db : Database Content) (sqls : List String) :
    (¬ ∃ last, Applied db sqls last) ↔
      ∃ (k : Nat) (sql : String) (before : Database Content) (e : String), sqls[k]? = some sql ∧
        Applied db (sqls.take k) before ∧ executeBatch sql before = .error e := by
  induction sqls generalizing db with
  | nil =>
      constructor
      · intro h
        exact absurd ⟨db, .nil db⟩ h
      · rintro ⟨k, sql, before, e, hk, -⟩
        simp at hk
  | cons sql sqls ih =>
      cases hsql : executeBatch sql db with
      | error e =>
          constructor
          · intro _
            exact ⟨0, sql, db, e, rfl, .nil db, hsql⟩
          · rintro - ⟨last, hlast⟩
            cases hlast with
            | cons hok _ =>
                rw [hsql] at hok
                cases hok
      | ok next =>
          have hsame : (¬ ∃ last, Applied db (sql :: sqls) last) ↔
              ¬ ∃ last, Applied next sqls last := by
            refine not_congr ⟨?_, ?_⟩
            · rintro ⟨last, hlast⟩
              cases hlast with
              | cons hok hrest =>
                  rw [hsql] at hok
                  cases hok
                  exact ⟨last, hrest⟩
            · rintro ⟨last, hlast⟩
              exact ⟨last, .cons hsql hlast⟩
          rw [hsame, ih next]
          constructor
          · rintro ⟨k, failing, before, e, hk, hbefore, hfail⟩
            exact ⟨k + 1, failing, before, e, hk, .cons hsql hbefore, hfail⟩
          · rintro ⟨k, failing, before, e, hk, hbefore, hfail⟩
            cases k with
            | zero =>
                cases hbefore
                cases hk
                rw [hsql] at hfail
                cases hfail
            | succ k =>
                cases hbefore with
                | cons hok hrest =>
                    rw [hsql] at hok
                    cases hok
                    exact ⟨k, failing, before, e, hk, hrest, hfail⟩

-- Blind batches do the same to the tables, whatever the header says.
theorem Applied.content_eq {db last db' last' : Database Content} {sqls : List String}
    (hblind : ∀ sql ∈ sqls, Blind Content sql) (hcontent : db.content = db'.content)
    (h : Applied db sqls last) (h' : Applied db' sqls last') : last.content = last'.content := by
  induction h generalizing db' with
  | nil =>
      cases h'
      exact hcontent
  | @cons db next last sql rest hsql hrest ih =>
      cases h' with
      | cons hsql' hrest' =>
          refine ih (fun sql hmem => hblind sql (List.mem_cons_of_mem _ hmem)) ?_ hrest'
          have hsame := hblind sql List.mem_cons_self db.content db.userVersion db'.userVersion
          have hdb' : (⟨db.content, db'.userVersion⟩ : Database Content) = db' := by
            rw [hcontent]
          rw [hdb', hsql, hsql'] at hsame
          exact Option.some.inj hsame

end Applied

section Run

variable {Content : Type} [Sqlite Content]
variable (out : Outside) (migrations : List String) (db : Database Content)

theorem check_eq_ok_iff (statement : Statement) (u : Unit) :
    out.check statement = .ok u ↔ out statement = none := by
  unfold Outside.check
  cases out statement with
  | none => simp
  | some e => simp

theorem runMigration_eq_ok_iff (migration : String × Nat) (next : Database Content) :
    runMigration out db migration = .ok next ↔
      out (.executeBatch migration.2) = none ∧ executeBatch migration.1 db = .ok next := by
  unfold runMigration
  rw [except_mapError_eq_ok, except_bind_eq_ok]
  simp [check_eq_ok_iff]

theorem loop_eq_ok_iff (pairs : List (String × Nat)) (last : Database Content) :
    pairs.foldlM (runMigration out) db = .ok last ↔
      (∀ pair ∈ pairs, out (.executeBatch pair.2) = none) ∧
        Applied db (pairs.map Prod.fst) last := by
  induction pairs generalizing db with
  | nil =>
      constructor
      · intro h
        cases h
        exact ⟨by simp, .nil _⟩
      · rintro ⟨-, h⟩
        cases h
        rfl
  | cons pair pairs ih =>
      rw [List.foldlM_cons, except_bind_eq_ok, List.map_cons, List.forall_mem_cons]
      constructor
      · rintro ⟨next, hnext, hrest⟩
        obtain ⟨hout, hsql⟩ := (runMigration_eq_ok_iff out db pair next).mp hnext
        obtain ⟨houts, happlied⟩ := (ih next).mp hrest
        exact ⟨⟨hout, houts⟩, .cons hsql happlied⟩
      · rintro ⟨⟨hout, houts⟩, happlied⟩
        cases happlied with
        | cons hsql hrest =>
            exact ⟨_, (runMigration_eq_ok_iff out db pair _).mpr ⟨hout, hsql⟩,
              (ih _).mpr ⟨houts, hrest⟩⟩

-- The loop in terms of the list of migrations.
theorem migrations_eq_ok_iff (done : Nat) (last : Database Content) :
    (migrations.zipIdx.drop done).foldlM (runMigration out) db = .ok last ↔
      (∀ n sql, migrations[n]? = some sql → done ≤ n → out (.executeBatch n) = none) ∧
        Applied db (migrations.drop done) last := by
  have hsqls : (migrations.zipIdx.drop done).map Prod.fst = migrations.drop done := by
    rw [List.map_drop, List.zipIdx_map_fst]
  rw [loop_eq_ok_iff, hsqls]
  refine and_congr_left' ⟨?_, ?_⟩
  · intro h n sql hsql hn
    have hpair : (migrations.zipIdx.drop done)[n - done]? = some (sql, n) := by
      rw [List.getElem?_drop, List.getElem?_zipIdx, Nat.add_sub_cancel' hn, hsql]
      simp
    exact h (sql, n) (List.mem_of_getElem? hpair)
  · rintro h ⟨sql, n⟩ hpair
    obtain ⟨k, hk⟩ := List.mem_iff_getElem?.mp hpair
    rw [List.getElem?_drop, List.getElem?_zipIdx, Option.map_eq_some_iff] at hk
    obtain ⟨found, hfound, heq⟩ := hk
    have hn : found = sql ∧ 0 + (done + k) = n := by simpa using heq
    refine h n sql ?_ (by omega)
    rw [← hn.1, ← hn.2, Nat.zero_add]
    exact hfound

-- When the body of the transaction reaches its commit, and with what.
theorem runMigrations_eq_ok_iff (migrated : Database Content) :
    runMigrations out migrations db = .ok migrated ↔
      (∀ statement ∈ [Statement.transaction, .getUserVersion, .setUserVersion, .commit],
        out statement = none) ∧
      0 ≤ db.userVersion.toInt ∧ db.userVersion.toInt.toNat ≤ migrations.length ∧
      migrations.length < 2 ^ 63 ∧
      ∃ last, (migrations.zipIdx.drop db.userVersion.toInt.toNat).foldlM (runMigration out) db =
          .ok last ∧
        migrated = { last with userVersion := storedVersion migrations.length } := by
  unfold runMigrations
  simp only [except_bind_eq_ok, check_eq_ok_iff, List.forall_mem_cons]
  constructor
  · rintro ⟨-, htransaction, -, hget, h⟩
    by_cases hneg : db.userVersion.toInt < 0
    · rw [if_pos hneg] at h
      cases h
    rw [if_neg hneg] at h
    by_cases hnewer : migrations.length < db.userVersion.toInt.toNat
    · rw [if_pos hnewer] at h
      cases h
    rw [if_neg hnewer] at h
    obtain ⟨last, hlast, h⟩ := except_bind_eq_ok.mp h
    by_cases hlong : 2 ^ 63 ≤ migrations.length
    · rw [if_pos hlong] at h
      cases h
    rw [if_neg hlong] at h
    obtain ⟨_, hset, h⟩ := except_bind_eq_ok.mp h
    obtain ⟨_, hcommit, h⟩ := except_bind_eq_ok.mp h
    rw [check_eq_ok_iff] at hset hcommit
    cases h
    exact ⟨⟨htransaction, hget, hset, hcommit, by simp⟩, by omega, by omega, by omega, last,
      hlast, rfl⟩
  · rintro ⟨⟨htransaction, hget, hset, hcommit, -⟩, hversion, hdone, hlong, last, hlast, rfl⟩
    refine ⟨(), htransaction, (), hget, ?_⟩
    rw [if_neg (by omega), if_neg (by omega), except_bind_eq_ok]
    refine ⟨last, hlast, ?_⟩
    rw [if_neg (by omega), except_bind_eq_ok]
    refine ⟨(), (check_eq_ok_iff out _ _).mpr hset, ?_⟩
    rw [except_bind_eq_ok]
    exact ⟨(), (check_eq_ok_iff out _ _).mpr hcommit, rfl⟩

theorem migrate_ok_iff (migrated : Database Content) :
    migrate out migrations db = (.ok (), migrated) ↔
      runMigrations out migrations db = .ok migrated := by
  unfold migrate
  cases runMigrations out migrations db with
  | error e => simp
  | ok found => simp

-- A run stores all of its work or nothing.
theorem migrate_cases :
    (∃ migrated, runMigrations out migrations db = .ok migrated ∧
      migrate out migrations db = (.ok (), migrated)) ∨
    ∃ e, runMigrations out migrations db = .error e ∧
      migrate out migrations db = (.error e, db) := by
  unfold migrate
  cases runMigrations out migrations db with
  | error e => exact Or.inr ⟨e, rfl, rfl⟩
  | ok migrated => exact Or.inl ⟨migrated, rfl, rfl⟩

-- The run fails exactly for a version it does not know or a statement that fails.
theorem not_migrated_iff (hlong : migrations.length < 2 ^ 63) :
    (¬ ∃ migrated, runMigrations out migrations db = .ok migrated) ↔
      db.userVersion.toInt < 0 ∨ (migrations.length : Int) < db.userVersion.toInt ∨
        StatementFails out migrations db := by
  by_cases hneg : db.userVersion.toInt < 0
  · constructor
    · intro _
      exact Or.inl hneg
    · rintro - ⟨migrated, h⟩
      have hversion := ((runMigrations_eq_ok_iff out migrations db migrated).mp h).2.1
      omega
  by_cases hnewer : (migrations.length : Int) < db.userVersion.toInt
  · constructor
    · intro _
      exact Or.inr (Or.inl hnewer)
    · rintro - ⟨migrated, h⟩
      have hdone := ((runMigrations_eq_ok_iff out migrations db migrated).mp h).2.2.1
      omega
  have hdone : db.userVersion.toInt.toNat ≤ migrations.length := by omega
  have hrun : (∃ migrated, runMigrations out migrations db = .ok migrated) ↔
      (∀ statement ∈ [Statement.transaction, .getUserVersion, .setUserVersion, .commit],
        out statement = none) ∧
      (∀ n sql, migrations[n]? = some sql → db.userVersion.toInt.toNat ≤ n →
        out (.executeBatch n) = none) ∧
      ∃ last, Applied db (migrations.drop db.userVersion.toInt.toNat) last := by
    simp only [runMigrations_eq_ok_iff, migrations_eq_ok_iff]
    constructor
    · rintro ⟨_, hothers, -, -, -, last, ⟨hbatches, hlast⟩, -⟩
      exact ⟨hothers, hbatches, last, hlast⟩
    · rintro ⟨hothers, hbatches, last, hlast⟩
      exact ⟨_, hothers, by omega, hdone, hlong, last, ⟨hbatches, hlast⟩, rfl⟩
  rw [hrun, or_iff_right hneg, or_iff_right hnewer]
  constructor
  · intro h
    by_cases hothers : ∀ statement ∈
        [Statement.transaction, .getUserVersion, .setUserVersion, .commit], out statement = none
    · by_cases hbatches : ∀ n sql, migrations[n]? = some sql →
          db.userVersion.toInt.toNat ≤ n → out (.executeBatch n) = none
      · have hstuck : ¬ ∃ last, Applied db (migrations.drop db.userVersion.toInt.toNat) last :=
          fun hlast => h ⟨hothers, hbatches, hlast⟩
        obtain ⟨k, sql, before, e, hk, hbefore, hfail⟩ := (not_applied_iff db _).mp hstuck
        rw [List.getElem?_drop] at hk
        refine Or.inr ⟨_, sql, hk, by omega, Or.inr ⟨before, e, ?_, hfail⟩⟩
        rwa [List.drop_take, Nat.add_sub_cancel_left]
      · push Not at hbatches
        obtain ⟨n, sql, hsql, hn, hout⟩ := hbatches
        exact Or.inr ⟨n, sql, hsql, by omega, Or.inl hout⟩
    · push Not at hothers
      exact Or.inl hothers
  · rintro (⟨statement, hmem, hfail⟩ | ⟨n, sql, hsql, hn, hfail⟩) ⟨hothers, hbatches, hlast⟩
    · exact hfail (hothers statement hmem)
    · cases hfail with
      | inl hout => exact hout (hbatches n sql hsql (by omega))
      | inr hfail =>
          obtain ⟨before, e, hbefore, hfail⟩ := hfail
          refine (not_applied_iff db _).mpr ⟨n - db.userVersion.toInt.toNat, sql, before, e, ?_, ?_,
            hfail⟩ hlast
          · rwa [List.getElem?_drop, Nat.add_sub_cancel' (by omega)]
          · rwa [← List.drop_take]

theorem toInt_storedVersion (n : Nat) (hn : n < 2 ^ 31) : (storedVersion n).toInt = n := by
  have hrange : (-2 ^ 31 : Int) ≤ n ∧ (n : Int) < 2 ^ 31 := by omega
  unfold storedVersion
  rw [if_pos hrange]
  exact Int32.toInt_ofInt_of_le (by omega) (by omega)

theorem runMigrations_spec {migrated : Database Content}
    (h : runMigrations out migrations db = .ok migrated) :
    db.userVersion.toInt.toNat ≤ migrations.length ∧
      migrated.userVersion = storedVersion migrations.length ∧
      ∃ last, Applied db (migrations.drop db.userVersion.toInt.toNat) last ∧
        migrated.content = last.content := by
  obtain ⟨-, -, hdone, -, last, hloop, heq⟩ :=
    (runMigrations_eq_ok_iff out migrations db migrated).mp h
  have happlied := ((migrations_eq_ok_iff out migrations db _ last).mp hloop).2
  exact ⟨hdone, by rw [heq], last, happlied, by rw [heq]⟩

-- A database that has every migration stays as it is.
theorem migrate_again (hshort : migrations.length < 2 ^ 31) {migrated : Database Content}
    (h : runMigrations out migrations db = .ok migrated) (again : Outside) :
    (migrate again migrations migrated).2 = migrated := by
  obtain ⟨-, hstored, -⟩ := runMigrations_spec out migrations db h
  have hversion : migrated.userVersion.toInt = migrations.length := by
    rw [hstored, toInt_storedVersion migrations.length hshort]
  obtain ⟨second, hsecond, hmigrate⟩ | ⟨e, -, hmigrate⟩ := migrate_cases again migrations migrated
  · obtain ⟨-, hstored', last, hlast, hcontent⟩ :=
      runMigrations_spec again migrations migrated hsecond
    rw [hversion, Int.toNat_natCast, List.drop_length] at hlast
    cases hlast
    rw [hmigrate]
    exact Database.ext hcontent (hstored'.trans hstored.symm)
  · rw [hmigrate]

-- Migrations run exactly once, in their order, or not at all: a run that fails changes nothing, a
-- second run changes nothing, and a release in between makes no difference for migrations that do
-- not read the number in the header. The header has room for 31 bits.
theorem migrate_once_in_order (hshort : migrations.length < 2 ^ 31) :
    (db.userVersion.toInt < 0 ∨ (migrations.length : Int) < db.userVersion.toInt ∨
        StatementFails out migrations db →
      (∃ e, (migrate out migrations db).1 = .error e) ∧ (migrate out migrations db).2 = db) ∧
    (¬ (db.userVersion.toInt < 0 ∨ (migrations.length : Int) < db.userVersion.toInt ∨
        StatementFails out migrations db) →
      (migrate out migrations db).1 = .ok () ∧
      (migrate out migrations db).2.userVersion.toInt = migrations.length ∧
      ∃ last, Applied db (migrations.drop db.userVersion.toInt.toNat) last ∧
        (migrate out migrations db).2.content = last.content) ∧
    ((migrate out migrations db).1 = .ok () →
      (∀ again : Outside, (migrate again migrations (migrate out migrations db).2).2 =
        (migrate out migrations db).2) ∧
      ∀ more : List String, (migrations ++ more).length < 2 ^ 31 →
        (∀ sql ∈ more, Blind Content sql) → ∀ second alone : Outside,
        (migrate second (migrations ++ more) (migrate out migrations db).2).1 = .ok () →
        (migrate alone (migrations ++ more) db).1 = .ok () →
        (migrate second (migrations ++ more) (migrate out migrations db).2).2 =
          (migrate alone (migrations ++ more) db).2) := by
  refine ⟨?_, ?_, ?_⟩
  · intro hfails
    have hnot := (not_migrated_iff out migrations db (by omega)).mpr hfails
    obtain ⟨migrated, hok, -⟩ | ⟨e, -, hmigrate⟩ := migrate_cases out migrations db
    · exact absurd ⟨migrated, hok⟩ hnot
    · rw [hmigrate]
      exact ⟨⟨e, rfl⟩, rfl⟩
  · intro hfails
    have hrun : ∃ migrated, runMigrations out migrations db = .ok migrated :=
      not_not.mp fun h => hfails ((not_migrated_iff out migrations db (by omega)).mp h)
    obtain ⟨migrated, hok⟩ := hrun
    obtain ⟨-, hstored, last, hlast, hcontent⟩ := runMigrations_spec out migrations db hok
    rw [(migrate_ok_iff out migrations db migrated).mpr hok]
    refine ⟨rfl, ?_, last, hlast, hcontent⟩
    rw [hstored, toInt_storedVersion migrations.length hshort]
  · intro hfirst
    obtain ⟨migrated, hok, hmigrate⟩ | ⟨e, -, hmigrate⟩ := migrate_cases out migrations db
    swap
    · rw [hmigrate] at hfirst
      cases hfirst
    rw [hmigrate]
    refine ⟨migrate_again out migrations db hshort hok, ?_⟩
    intro more hmore hblind second alone hsecond halone
    obtain ⟨both, hboth, heqBoth⟩ | ⟨e, -, he⟩ := migrate_cases second (migrations ++ more) migrated
    swap
    · rw [he] at hsecond
      cases hsecond
    obtain ⟨once, honce, heqOnce⟩ | ⟨e, -, he⟩ := migrate_cases alone (migrations ++ more) db
    swap
    · rw [he] at halone
      cases halone
    rw [heqBoth, heqOnce]
    obtain ⟨hdone, hstored, last, hlast, hmigrated⟩ := runMigrations_spec out migrations db hok
    obtain ⟨-, hstoredBoth, lastBoth, hlastBoth, hboth⟩ :=
      runMigrations_spec second _ migrated hboth
    obtain ⟨-, hstoredOnce, lastOnce, hlastOnce, honce⟩ := runMigrations_spec alone _ db honce
    -- The second run starts where the first one stopped, with its number in the header.
    have hversion : migrated.userVersion.toInt = migrations.length := by
      rw [hstored, toInt_storedVersion migrations.length hshort]
    rw [hversion, Int.toNat_natCast, List.drop_left] at hlastBoth
    rw [List.drop_append_of_le_length hdone] at hlastOnce
    obtain ⟨middle, hmiddle, hrest⟩ := hlastOnce.split
    have hsame : middle = last := hmiddle.unique hlast
    have hcontent : migrated.content = middle.content := by rw [hmigrated, hsame]
    have hlasts := hlastBoth.content_eq hblind hcontent hrest
    refine Database.ext ?_ (hstoredBoth.trans hstoredOnce.symm)
    rw [hboth, honce, hlasts]

end Run

-- A table t with one column, and the two statements of the runs below.
section Notes

def CREATE_NOTES : String := "CREATE TABLE t (x)"
def NOTE_VERSION : String := "INSERT INTO t SELECT user_version FROM pragma_user_version"

local instance notes : Sqlite (Option (List Int)) where
  executeBatch sql db :=
    if sql = CREATE_NOTES then
      match db.content with
      | none => .ok { db with content := some [] }
      | some _ => .error "table t already exists"
    else if sql = NOTE_VERSION then
      match db.content with
      | none => .error "no such table: t"
      | some rows => .ok { db with content := some (rows ++ [db.userVersion.toInt]) }
    else if sql = "" then .ok db
    else .error "syntax error"

def calm : Outside := fun _ => none

def emptyFile : Database (Option (List Int)) := ⟨none, 0⟩

theorem migrate_once_in_order_empty :
    (migrate calm [CREATE_NOTES] emptyFile).1 = .ok () ∧
      (migrate calm [CREATE_NOTES] emptyFile).2.userVersion.toInt = 1 ∧
      (migrate calm [CREATE_NOTES] (migrate calm [CREATE_NOTES] emptyFile).2).2 =
        (migrate calm [CREATE_NOTES] emptyFile).2 ∧
      (migrate calm ([CREATE_NOTES] ++ [""]) (migrate calm [CREATE_NOTES] emptyFile).2).2 =
        (migrate calm ([CREATE_NOTES] ++ [""]) emptyFile).2 := by
  obtain ⟨-, -, hok⟩ := migrate_once_in_order calm [CREATE_NOTES] emptyFile (by decide)
  have hfirst : (migrate calm [CREATE_NOTES] emptyFile).1 = .ok () := by decide +kernel
  obtain ⟨hagain, hmore⟩ := hok hfirst
  refine ⟨hfirst, by decide +kernel, hagain calm, ?_⟩
  refine hmore [""] (by decide) ?_ calm calm (by decide +kernel) (by decide +kernel)
  intro sql hsql content v w
  rw [List.mem_singleton.mp hsql]
  rfl

theorem applied_replicate (n : Nat) :
    Applied emptyFile (List.replicate n "") emptyFile := by
  induction n with
  | zero => exact .nil _
  | succ n ih => exact .cons (by decide +kernel) ih

-- A migration can read the number in the header, which is not yet set when all migrations run at
-- once. And the header has no room for a count of 2 ^ 31.
theorem release_between_shows :
    ((migrate calm [CREATE_NOTES] emptyFile).1 = .ok () ∧
      (migrate calm [CREATE_NOTES, NOTE_VERSION] (migrate calm [CREATE_NOTES] emptyFile).2) =
        (.ok (), ⟨some [1], 2⟩) ∧
      migrate calm [CREATE_NOTES, NOTE_VERSION] emptyFile = (.ok (), ⟨some [0], 2⟩)) ∧
    (migrate calm (List.replicate (2 ^ 31) "") emptyFile).1 = .ok () ∧
    (migrate calm (List.replicate (2 ^ 31) "") emptyFile).2.userVersion.toInt ≠
      (List.replicate (2 ^ 31) "").length := by
  refine ⟨⟨by decide +kernel, by decide +kernel, by decide +kernel⟩, ?_⟩
  have hlong : (List.replicate (2 ^ 31) "").length < 2 ^ 63 := by
    rw [List.length_replicate]
    decide
  have hrun : runMigrations calm (List.replicate (2 ^ 31) "") emptyFile = .ok
      { emptyFile with userVersion := storedVersion (List.replicate (2 ^ 31) "").length } := by
    refine (runMigrations_eq_ok_iff ..).mpr ⟨fun _ _ => rfl, by decide, ?_, hlong, emptyFile, ?_,
      rfl⟩
    · exact Nat.zero_le _
    · exact (migrations_eq_ok_iff ..).mpr ⟨fun _ _ _ _ => rfl, applied_replicate _⟩
  rw [(migrate_ok_iff ..).mpr hrun]
  refine ⟨rfl, ?_⟩
  have hlt := (storedVersion (List.replicate (2 ^ 31) "").length).toInt_lt
  rw [List.length_replicate] at hlt ⊢
  have hle : (storedVersion ((2 ^ 31 : Nat) : Int)).toInt < 2 ^ 31 := hlt
  intro heq
  rw [heq] at hle
  exact absurd hle (by decide)

end Notes

end Lodger.Db
