import Lodger.Install
import Lodger.Lib.Except

namespace Lodger.Install

open Lodger.Lib
open Config (DEFAULT_LISTEN checkPlainHttp Formats)

section Files

variable (h : Host) (t u : Target) (d : Dir) (p q : Path) (file : File) (x y : Option File)

@[simp] theorem files_set : (h.set p x).files = Function.update h.files p x := rfl

theorem files_set_ne (hpq : p ≠ q) : (h.set q x).files p = h.files p := by
  rw [files_set, Function.update_of_ne hpq]

theorem accounts_set (hpasswd : p ≠ .file .passwdFile) (hgroup : p ≠ .file .groupFile) :
    (h.set p x).accounts = h.accounts := by
  unfold Host.accounts
  rw [files_set_ne h _ p x hpasswd.symm, files_set_ne h _ p x hgroup.symm]

@[simp] theorem dirs_set : (h.set p x).dirs = h.dirs := rfl

-- What `create_dirs` leaves that does not fail.
def Host.makeDir : Host := { h with dirs := h.dirs.ensure 0o755 d }

@[simp] theorem files_makeDir : (h.makeDir d).files = h.files := rfl

theorem makeDir_of_isDir (hd : h.isDir d) : h.makeDir d = h := by
  ext1
  · rfl
  · exact DirTree.ensure_of_isSome hd

theorem set_set : (h.set p x).set p y = h.set p y := by
  ext1
  · simp
  · rfl

theorem set_comm (hpq : p ≠ q) : (h.set p x).set q y = (h.set q y).set p x := by
  ext1
  · exact Function.update_comm hpq x y h.files
  · rfl

theorem isDir_makeDir : (h.makeDir d).isDir d := DirTree.isSome_ensure_self

theorem setDir_setDir {mode mode' : Nat} (hparent : h.isDir d.tail) :
    (h.setDir d mode').setDir d mode = h.setDir d mode := by
  ext1
  · rfl
  · exact DirTree.put_put hparent

-- The last step of `create_dirs`.
theorem setDir_makeDir (hno : h.dirs.get d = none) :
    (h.makeDir d.tail).setDir d 0o755 = h.makeDir d := by
  ext1
  · rfl
  · exact DirTree.put_ensure_tail hno

-- What a write leaves that does not fail.
def Host.put : Host := ((h.makeDir t.dir).set (.file t) (some file)).set (.new t) none

theorem files_put : (h.put t file).files =
    Function.update (Function.update h.files (.file t) (some file)) (.new t) none := rfl

theorem dirs_put : (h.put t file).dirs = h.dirs.ensure 0o755 t.dir := rfl

@[simp] theorem read_set_new : (h.set (.new t) x).read u = h.read u := by
  simp [Host.read]

@[simp] theorem read_set_file :
    (h.set (.file t) x).read u = if u = t then x.map File.bytes else h.read u := by
  unfold Host.read
  rw [files_set, Function.update_apply]
  by_cases hu : u = t
  · simp [hu]
  · simp [hu]

@[simp] theorem read_makeDir : (h.makeDir d).read u = h.read u := rfl

@[simp] theorem read_put : (h.put t file).read u = if u = t then some file.bytes else h.read u := by
  simp [Host.put]

theorem has_eq : h.has t = (h.read t).isSome := by
  simp [Host.has, Host.read]

@[simp] theorem has_set_file :
    (h.set (.file t) x).has u = if u = t then x.isSome else h.has u := by
  rw [has_eq, has_eq, read_set_file]
  by_cases hu : u = t
  · simp [hu]
  · simp [hu]

end Files

-- When the checks pass.
section Check

variable [Tls] [Formats] {h : Host} {selfSigned : Option String} {accepts : SocketAddr → Bool}
  {listen : SocketAddr}

structure Ready (h : Host) (selfSigned : Option String) (accepts : SocketAddr → Bool)
    (listen : SocketAddr) : Prop where
  name : ∀ name ∈ selfSigned, validName name
  pair : selfSigned.isSome → foreignPair h = none
  systemd : h.systemdRunning
  socket : h.has .libvirtSock || h.has .virtqemudSock
  group : hasEntry (h.text .groupFile) "libvirt"
  config : checkConfig h selfSigned = (some listen, [])
  port : h.has .unitFile ∨ accepts listen = false

theorem problems_eq_nil_iff : problems h selfSigned accepts = [] ↔
    (∀ name ∈ selfSigned, validName name) ∧ (selfSigned.isSome → foreignPair h = none) ∧
      h.systemdRunning ∧ (h.has .libvirtSock || h.has .virtqemudSock) ∧
      hasEntry (h.text .groupFile) "libvirt" ∧ (checkConfig h selfSigned).2 = [] ∧
      checkPort h accepts (checkConfig h selfSigned).1 = [] := by
  have hname : nameProblems selfSigned = [] ↔ ∀ name ∈ selfSigned, validName name := by
    cases selfSigned with
    | none => simp [nameProblems]
    | some name => simp [nameProblems]
  unfold problems hostProblems
  simp only [List.append_eq_nil_iff, hname, ite_eq_left_iff, ite_eq_right_iff,
    Option.toList_eq_nil_iff, List.cons_ne_nil, imp_false, not_not, and_assoc]

theorem check_eq_ok_iff : check h selfSigned accepts = .ok listen ↔
    Ready h selfSigned accepts listen := by
  have hport : ∀ address, checkPort h accepts (some address) = [] ↔
      (h.has .unitFile ∨ accepts address = false) := by
    intro address
    cases hunit : h.has .unitFile <;> simp [checkPort, hunit]
  unfold check
  constructor
  · intro hok
    cases haddress : (checkConfig h selfSigned).1 with
    | none =>
        rw [haddress] at hok
        cases hok
    | some address =>
        rw [haddress] at hok
        simp only at hok
        by_cases hproblems : problems h selfSigned accepts = []
        · rw [if_pos hproblems] at hok
          cases hok
          obtain ⟨hname, hpair, hsystemd, hsocket, hgroup, hconfig, htaken⟩ :=
            problems_eq_nil_iff.mp hproblems
          rw [haddress, hport] at htaken
          exact ⟨hname, hpair, hsystemd, hsocket, hgroup, Prod.ext haddress hconfig, htaken⟩
        · rw [if_neg hproblems] at hok
          cases hok
  · intro hready
    have haddress : (checkConfig h selfSigned).1 = some listen := by rw [hready.config]
    have hproblems : problems h selfSigned accepts = [] := by
      refine problems_eq_nil_iff.mpr ⟨hready.name, hready.pair, hready.systemd, hready.socket,
        hready.group, by rw [hready.config], ?_⟩
      rw [haddress, hport]
      exact hready.port
    rw [haddress]
    simp only
    rw [if_pos hproblems]

end Check

-- What the crates and `systemd-sysusers` promise.
section Laws

variable [Formats]

-- The configuration with `tls_cert` and `tls_key` set to the files of a self-signed pair.
def tlsText (text : String) : Except String String :=
  (Formats.document text).map fun doc =>
    Formats.render (Formats.set (Formats.set doc "tls_cert" selfSignedFiles.cert) "tls_key"
      selfSignedFiles.key)

-- The template holds the defaults. A key that is set has its value, the other keys stay, and a key
-- that has the value already changes nothing.
class LawfulFormats [Dist] : Prop where
  template : Formats.file Dist.config =
    .ok ⟨some DEFAULT_LISTEN, none, [], none, none, false⟩
  file_tlsText : ∀ {text edited file}, tlsText text = .ok edited → Formats.file text = .ok file →
    Formats.file edited = .ok { file with
      tlsCert := some selfSignedFiles.cert, tlsKey := some selfSignedFiles.key }
  tlsText_tlsText : ∀ {text edited}, tlsText text = .ok edited → tlsText edited = .ok edited

-- A user that exists stays as it is, and no group goes.
class LawfulSysusers [Sysusers] : Prop where
  add_add : ∀ accounts, Sysusers.add (Sysusers.add accounts) = Sysusers.add accounts
  keeps_group : ∀ (accounts : Accounts) (name : String),
    hasEntry ((accounts.group.map File.bytes).getD "") name →
      hasEntry (((Sysusers.add accounts).group.map File.bytes).getD "") name

variable [Dist]

theorem load_template [LawfulFormats] :
    Config.load Dist.config = .ok ⟨DEFAULT_LISTEN, none, [], none, false⟩ := by
  unfold Config.load
  rw [LawfulFormats.template]
  rfl

theorem load_tlsText [LawfulFormats] {text edited : String} {config : Config}
    (hedited : tlsText text = .ok edited) (hload : Config.load text = .ok config) :
    Config.load edited = .ok { config with tls := some selfSignedFiles } := by
  unfold Config.load at hload ⊢
  obtain ⟨file, hfile, hload⟩ := except_bind_eq_ok.mp hload
  rw [except_mapError_eq_ok] at hfile
  obtain ⟨publicUrl, hurl, hload⟩ := except_bind_eq_ok.mp hload
  obtain ⟨tls, -, hload⟩ := except_bind_eq_ok.mp hload
  cases hload
  rw [LawfulFormats.file_tlsText hedited hfile]
  refine except_bind_eq_ok.mpr ⟨_, rfl, ?_⟩
  exact except_bind_eq_ok.mpr ⟨publicUrl, hurl, rfl⟩

end Laws

end Lodger.Install
