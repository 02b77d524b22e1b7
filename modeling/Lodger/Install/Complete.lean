import Lodger.Install.Lemmas

namespace Lodger.Install

open Lodger.Lib
open Config (Formats)

-- The directories that an install needs, in the order of its steps. `found` says that there is a
-- configuration.
def written (signed found : Bool) : List Dir :=
  [Target.bin.dir, Target.sysusersFile.dir] ++ (if found then [] else [Target.configFile.dir]) ++
    (if signed then [Target.tlsKey.dir, Target.tlsCert.dir, Target.configFile.dir] else []) ++
    [Target.unitFile.dir]

theorem mem_written_of_found {signed found found' : Bool} {d : Dir} (hfound : found → found')
    (hd : d ∈ written signed found') : d ∈ written signed found := by
  cases found with
  | true =>
      rw [hfound rfl] at hd
      exact hd
  | false =>
      simp only [written, List.mem_append] at hd ⊢
      grind

theorem eq_config_of_not_written {signed found found' : Bool} {d : Dir}
    (hd : d ∈ written signed found) (hout : d ∉ written signed found') :
    d = Target.configFile.dir ∧ signed = false ∧ found = false ∧ found' := by
  simp only [written, List.mem_append] at hd hout
  grind

section Complete

variable [Dist] [Sysusers]

def template : File := ⟨Dist.config, 0o644, none⟩

-- The files after an install that nothing interrupts. `pair` is the certificate and the key that
-- it made.
def installed (exe : String) (pair : Option (File × File)) (config : File) (h : Host) : Host where
  files
    | .file .bin => some ⟨exe, 0o755, none⟩
    | .file .sysusersFile => some ⟨Dist.sysusers, 0o644, none⟩
    | .file .unitFile => some ⟨Dist.unit, 0o644, none⟩
    | .new .bin | .new .sysusersFile | .new .unitFile => none
    | .file .passwdFile => (Sysusers.add h.accounts).passwd
    | .file .groupFile => (Sysusers.add h.accounts).group
    | .file .configFile => some config
    | .new .configFile =>
        if pair.isSome || !h.has .configFile then none else h.files (.new .configFile)
    | .file .tlsCert => (pair.map Prod.fst).or (h.files (.file .tlsCert))
    | .file .tlsKey => (pair.map Prod.snd).or (h.files (.file .tlsKey))
    | .new .tlsCert => if pair.isSome then none else h.files (.new .tlsCert)
    | .new .tlsKey => if pair.isSome then none else h.files (.new .tlsKey)
    | p => h.files p
  dirs := h.dirs.ensureAll 0o755 (written pair.isSome (h.has .configFile))

def baseConfig (h : Host) : File := (h.files (.file .configFile)).getD template

def configAfter [Formats] (selfSigned : Option String) (h : Host) : Option File :=
  match selfSigned with
  | none => some (baseConfig h)
  | some _ => (tlsText (baseConfig h).bytes).toOption.map fun text => ⟨text, 0o644, none⟩

def ownerAfter (h : Host) : Option (Nat × Nat) := userIds (h.addUser.text .passwdFile) "lodger"

variable [Tls]

def pairAfter (pair : SelfSigned) (selfSigned : Option String) (h : Host) :
    Option (Option (File × File)) :=
  match selfSigned with
  | none => some none
  | some _ => (ownerAfter h).map fun owner =>
      some (⟨pair.certPem, 0o644, none⟩, ⟨pair.keyPem, 0o600, some owner⟩)

omit [Dist] in
theorem isSome_pairAfter {made : SelfSigned} {selfSigned : Option String} {h : Host}
    {pair : Option (File × File)} (hpair : pairAfter made selfSigned h = some pair) :
    pair.isSome = selfSigned.isSome := by
  cases selfSigned with
  | none =>
      cases hpair
      rfl
  | some name =>
      obtain ⟨owner, _, rfl⟩ := Option.map_eq_some_iff.mp hpair
      rfl

-- The install goes through, and leaves `whole`.
def Completes [Formats] (env : Env) (selfSigned : Option String) (h whole : Host) : Prop :=
  ∃ pair config loaded, pairAfter env.pair selfSigned h = some pair ∧
    configAfter selfSigned h = some config ∧ Config.load config.bytes = .ok loaded ∧
    whole = installed env.exe pair config h

end Complete

-- The same, as the steps of the program leave it.
section Steps

variable [Dist] [Sysusers] (exe : String) (h : Host)

attribute [local simp] installed files_put Host.addUser Host.accounts Host.has

-- The files before the certificate.
def prepared : Host :=
  let host := ((h.put .bin ⟨exe, 0o755, none⟩).put .sysusersFile
    ⟨Dist.sysusers, 0o644, none⟩).addUser
  if host.has .configFile then host else host.put .configFile template

theorem prepared_files (p : Path) : (prepared exe h).files p =
    if p = .file .unitFile ∨ p = .new .unitFile then h.files p
    else (installed exe none (baseConfig h) h).files p := by
  unfold prepared baseConfig
  cases hconfig : h.files (.file .configFile) with
  | none =>
      cases p with
      | file t =>
          cases t <;> simp [hconfig]
      | new t =>
          cases t <;> simp [hconfig]
  | some file =>
      cases p with
      | file t =>
          cases t <;> simp [hconfig]
      | new t =>
          cases t <;> simp [hconfig]

theorem prepared_dirs : (prepared exe h).dirs = h.dirs.ensureAll 0o755
    ([Target.bin.dir, Target.sysusersFile.dir] ++
      if h.has .configFile then [] else [Target.configFile.dir]) := by
  have hhas : (((h.put .bin ⟨exe, 0o755, none⟩).put .sysusersFile
      ⟨Dist.sysusers, 0o644, none⟩).addUser).has .configFile = h.has .configFile := by
    simp
  unfold prepared
  simp only
  rw [hhas]
  cases h.has .configFile <;> rfl

theorem prepared_config : (prepared exe h).read .configFile = some (baseConfig h).bytes := by
  unfold Host.read
  rw [prepared_files]
  simp

theorem prepared_users : (prepared exe h).text .passwdFile = h.addUser.text .passwdFile := by
  unfold Host.text Host.read
  rw [prepared_files]
  simp

theorem prepared_unit : (prepared exe h).put .unitFile ⟨Dist.unit, 0o644, none⟩ =
    installed exe none (baseConfig h) h := by
  ext1
  · funext p
    rw [files_put]
    cases p with
    | file t => cases t <;> simp [prepared_files]
    | new t => cases t <;> simp [prepared_files]
  · rw [dirs_put, prepared_dirs]
    cases hfound : h.has .configFile <;> simp only [installed, hfound] <;> rfl

theorem prepared_pair_unit (cert key config : File) :
    ((((prepared exe h).put .tlsKey key).put .tlsCert cert).put .configFile config).put .unitFile
      ⟨Dist.unit, 0o644, none⟩ = installed exe (some (cert, key)) config h := by
  ext1
  · funext p
    simp only [files_put]
    cases p with
    | file t => cases t <;> simp [prepared_files]
    | new t => cases t <;> simp [prepared_files]
  · simp only [dirs_put]
    rw [prepared_dirs]
    cases hfound : h.has .configFile <;> simp only [installed, hfound] <;> rfl

end Steps

section Runs

variable [Tls] {α : Type} {answer : (c : Call) → World → Except InstallError c.Result × World}
  {s t : World} {a : α}

theorem run_mapError_ok {f : InstallError → InstallError} {p : M α} :
    (mapError f p).run answer s = (.ok a, t) ↔ p.run answer s = (.ok a, t) := by
  unfold mapError
  rw [Prog.run_bind_ok (Prog.run_attempt p)]
  generalize p.run answer s = result
  obtain ⟨r, u⟩ := result
  cases r with
  | ok a' => rfl
  | error e =>
      constructor
      · intro h
        cases h
      · intro h
        cases h

theorem run_liftExcept_ok {r : Except InstallError α} :
    (liftExcept r).run answer s = (.ok a, t) ↔ r = .ok a ∧ t = s := by
  unfold liftExcept
  rw [Prog.run_done, Prod.mk.injEq, @eq_comm _ s]

end Runs

-- A run that nothing interrupts.
section Calm

variable [Tls] [Sysusers] (env : Env) (h : Host) (failed : Option Call)

attribute [local simp] Env.perform

theorem perform_rename (t : Target) (file : File) :
    (env.perform ((h.makeDir t.dir).set (.new t) (some file)) (.rename t)).2 = h.put t file := by
  have hnew : ((h.makeDir t.dir).set (.new t) (some file)).files (.new t) = some file := by simp
  simp only [Env.perform, Host.put]
  rw [hnew, set_comm _ (.new t) (.file t) _ _ (by simp), set_set]

theorem perform_writeNew (t : Target) (file : File) :
    env.perform (h.makeDir t.dir) (.writeNew t file) =
      (.ok (), (h.makeDir t.dir).set (.new t) (some file)) := by
  simp only [Env.perform]
  rw [if_pos (isDir_makeDir h t.dir)]

-- One directory, when its parent is there.
theorem perform_createDir {d : Dir} (hno : ¬h.isDir d) :
    env.perform (h.makeDir d.tail) (.createDir d) =
      (.ok (), (h.makeDir d.tail).setDir d env.newDirMode) := by
  have hstill : ¬(h.makeDir d.tail).isDir d := by
    have hget := DirTree.get_ensure_tail (m := 0o755) (Option.not_isSome_iff_eq_none.mp hno)
    simpa [Host.isDir, Host.makeDir] using hget
  simp only [Env.perform]
  rw [if_neg hstill, if_pos (isDir_makeDir h d.tail)]

theorem perform_setMode {d : Dir} (hno : ¬h.isDir d) (mode : Nat) :
    env.perform ((h.makeDir d.tail).setDir d mode) (.setMode d 0o755) = (.ok (), h.makeDir d) := by
  have hdir : ((h.makeDir d.tail).setDir d mode).isDir d := by
    simp [Host.isDir, Host.setDir, DirTree.get_put (isDir_makeDir h d.tail)]
  simp only [Env.perform]
  rw [if_pos hdir, setDir_setDir _ d (isDir_makeDir h d.tail),
    setDir_makeDir h d (Option.not_isSome_iff_eq_none.mp hno)]

theorem run_ask_calm {h h' : Host} {failed : Option Call} {c : Call}
    {r : Except InstallError c.Result} (hperform : env.perform h c = (r, h')) :
    (ask c).run env.calm.answer ⟨h, failed⟩ = (r, ⟨h', failed⟩) := by
  have hcalm : (if c = .look then none else env.calm.fault ⟨h, failed⟩ c) = none := by
    split
    · rfl
    · rfl
  rw [ask, Prog.run_ask, Env.answer, hcalm]
  exact congrArg (fun x : Except InstallError c.Result × Host => (x.1, World.mk x.2 failed))
    hperform

theorem run_createDirs (d : Dir) : (createDirs d).run env.calm.answer ⟨h, failed⟩ =
    (.ok (), ⟨h.makeDir d, failed⟩) := by
  induction d with
  | nil => rfl
  | cons name parent ih =>
      have hlook : (ask .look).run env.calm.answer ⟨h, failed⟩ = (.ok h, ⟨h, failed⟩) := rfl
      unfold createDirs
      rw [Prog.run_bind_ok hlook]
      by_cases hdir : h.isDir (name :: parent)
      · rw [if_pos hdir, makeDir_of_isDir h _ hdir]
        rfl
      · have hcreate : (Prog.attempt (ask (.createDir (name :: parent)))).run env.calm.answer
            ⟨h.makeDir parent, failed⟩ = (.ok (.ok ()),
              ⟨(h.makeDir parent).setDir (name :: parent) env.newDirMode, failed⟩) := by
          have hperform : env.perform (h.makeDir parent) (.createDir (name :: parent)) = (.ok (),
              (h.makeDir parent).setDir (name :: parent) env.newDirMode) :=
            perform_createDir env h hdir
          rw [Prog.run_attempt, run_ask_calm env hperform]
        rw [if_neg hdir, Prog.run_bind_ok ih, Prog.run_bind_ok hcreate]
        exact run_ask_calm env (perform_setMode env h hdir env.newDirMode)

theorem run_writeAs (t : Target) (bytes : String) (mode : Nat) (owner : Option (Nat × Nat)) :
    (writeAs t bytes mode owner).run env.calm.answer ⟨h, failed⟩ =
      (.ok (), ⟨h.put t ⟨bytes, mode, owner⟩, failed⟩) := by
  have hwritten : (Prog.attempt do
      ask (.writeNew t ⟨bytes, mode, owner⟩)
      ask (.rename t) : M _).run env.calm.answer ⟨h.makeDir t.dir, failed⟩ =
        (.ok (.ok ()), ⟨h.put t ⟨bytes, mode, owner⟩, failed⟩) := by
    rw [Prog.run_attempt, Prog.run_bind_ok (run_ask_calm env (perform_writeNew env h t _)),
      ← perform_rename env h t ⟨bytes, mode, owner⟩]
    rfl
  unfold writeAs
  rw [Prog.run_bind_ok (run_mapError_ok.mpr (run_createDirs env h failed t.dir)),
    Prog.run_bind_ok hwritten]
  rfl

theorem run_write (t : Target) (bytes : String) (mode : Nat) :
    (write t bytes mode).run env.calm.answer ⟨h, failed⟩ =
      (.ok (), ⟨h.put t ⟨bytes, mode, none⟩, failed⟩) :=
  run_writeAs env h failed t bytes mode none

theorem run_copyBinary : copyBinary.run env.calm.answer ⟨h, failed⟩ =
    (.ok (), ⟨h.put .bin ⟨env.exe, 0o755, none⟩, failed⟩) :=
  run_writeAs env h failed .bin env.exe 0o755 none

theorem run_sysusers (args : List String) :
    (runCommand "systemd-sysusers" args).run env.calm.answer ⟨h, failed⟩ =
      (.ok (), ⟨h.addUser, failed⟩) := rfl

theorem run_startService : startService.run env.calm.answer ⟨h, failed⟩ =
    (.ok (), ⟨h, failed⟩) := rfl

theorem run_writeTemplate [Dist] : writeTemplate.run env.calm.answer ⟨h, failed⟩ =
    (.ok (), ⟨if h.has .configFile then h else h.put .configFile template, failed⟩) := by
  have hrun : writeTemplate.run env.calm.answer ⟨h, failed⟩ =
      (if h.has .configFile then pure () else write .configFile Dist.config 0o644 : M Unit).run
        env.calm.answer ⟨h, failed⟩ := rfl
  rw [hrun]
  by_cases hhas : h.has .configFile
  · rw [if_pos hhas, if_pos hhas]
    rfl
  · rw [if_neg hhas, if_neg hhas]
    exact run_writeAs env h failed .configFile Dist.config 0o644 none

theorem perform_read_host (t : Target) : (env.perform h (.read t)).2 = h := by
  cases hread : h.read t with
  | none => simp [hread]
  | some text => simp [hread]

theorem perform_read_ok {t : Target} {text : String} :
    (env.perform h (.read t)).1 = .ok text ↔ h.read t = some text := by
  cases hread : h.read t with
  | none => simp [hread]
  | some found => simp [hread]

theorem perform_read_text (t : Target) :
    (env.perform h (.read t)).1.toOption.getD "" = h.text t := by
  cases hread : h.read t with
  | none => simp [hread, Host.text, Except.toOption]
  | some found => simp [hread, Host.text, Except.toOption]

theorem run_read (t : Target) : (ask (.read t)).run env.calm.answer ⟨h, failed⟩ =
    ((env.perform h (.read t)).1, ⟨h, failed⟩) := by
  have hrun : (ask (.read t)).run env.calm.answer ⟨h, failed⟩ =
      ((env.perform h (.read t)).1, ⟨(env.perform h (.read t)).2, failed⟩) := rfl
  rw [hrun, perform_read_host]

theorem run_read_ok {t : Target} {text : String} {w : World} :
    (ask (.read t)).run env.calm.answer ⟨h, failed⟩ = (.ok text, w) ↔
      h.read t = some text ∧ w = ⟨h, failed⟩ := by
  rw [run_read, Prod.mk.injEq, perform_read_ok, @eq_comm _ _ w]

theorem run_users : ∃ users : Except InstallError String,
    (Prog.attempt (ask (.read .passwdFile)) : M _).run env.calm.answer ⟨h, failed⟩ =
      (.ok users, ⟨h, failed⟩) ∧ users.toOption.getD "" = h.text .passwdFile := by
  refine ⟨_, ?_, perform_read_text env h .passwdFile⟩
  rw [Prog.run_attempt, run_read]

variable [Formats]

theorem run_setTlsPaths_ok {w : World} :
    setTlsPaths.run env.calm.answer ⟨h, failed⟩ = (.ok (), w) ↔
      ∃ text edited, h.read .configFile = some text ∧ tlsText text = .ok edited ∧
        w = ⟨h.put .configFile ⟨edited, 0o644, none⟩, failed⟩ := by
  unfold setTlsPaths
  rw [Prog.run_bind_ok_iff]
  constructor
  · intro ⟨text, u, hread, hrest⟩
    obtain ⟨htext, rfl⟩ := (run_read_ok env h failed).mp (run_mapError_ok.mp hread)
    obtain ⟨doc, v, hparse, hwrite⟩ := Prog.run_bind_eq_ok hrest
    obtain ⟨hdoc, rfl⟩ := run_liftExcept_ok.mp hparse
    rw [except_mapError_eq_ok] at hdoc
    refine ⟨text, _, htext, except_map_eq_ok.mpr ⟨doc, hdoc, rfl⟩, ?_⟩
    have hdone := (run_writeAs env h failed .configFile _ 0o644 none).symm.trans hwrite
    exact (Prod.mk.inj hdone).2.symm
  · intro ⟨text, edited, htext, hedited, hw⟩
    obtain ⟨doc, hdoc, hedited⟩ := except_map_eq_ok.mp hedited
    refine ⟨text, _, run_mapError_ok.mpr ((run_read_ok env h failed).mpr ⟨htext, rfl⟩), ?_⟩
    rw [Prog.run_bind_ok (run_liftExcept_ok.mpr ⟨except_mapError_eq_ok.mpr hdoc, rfl⟩), hw,
      ← hedited]
    exact run_writeAs env h failed .configFile _ 0o644 none

theorem run_loadTls_ok {w : World} {tls : Bool} :
    loadTls.run env.calm.answer ⟨h, failed⟩ = (.ok tls, w) ↔
      ∃ text config, h.read .configFile = some text ∧ Config.load text = .ok config ∧
        config.tls.isSome = tls ∧ w = ⟨h, failed⟩ := by
  unfold loadTls
  rw [Prog.run_bind_ok_iff]
  constructor
  · intro ⟨text, u, hread, hrest⟩
    obtain ⟨htext, rfl⟩ := (run_read_ok env h failed).mp (run_mapError_ok.mp hread)
    obtain ⟨config, v, hlift, hdone⟩ := Prog.run_bind_eq_ok hrest
    obtain ⟨hload, rfl⟩ := run_liftExcept_ok.mp hlift
    cases hdone
    exact ⟨text, config, htext, except_mapError_eq_ok.mp hload, rfl, rfl⟩
  · intro ⟨text, config, htext, hload, htls, hw⟩
    refine ⟨text, _, run_mapError_ok.mpr ((run_read_ok env h failed).mpr ⟨htext, rfl⟩), ?_⟩
    rw [Prog.run_bind_ok (run_liftExcept_ok.mpr ⟨except_mapError_eq_ok.mpr hload, rfl⟩), hw, ← htls]
    rfl

theorem run_apply [Dist] {selfSigned : Option String} {listen : SocketAddr} {done : Installed}
    {w : World} :
    (apply selfSigned listen).run env.calm.answer ⟨h, failed⟩ = (.ok done, w) ↔
      ∃ certificate u, (makeCertificate selfSigned).run env.calm.answer
          ⟨prepared env.exe h, failed⟩ = (.ok certificate, u) ∧
        ∃ text config, u.host.read .configFile = some text ∧ Config.load text = .ok config ∧
          done = ⟨listen, config.tls.isSome, certificate⟩ ∧
          w = ⟨u.host.put .unitFile ⟨Dist.unit, 0o644, none⟩, u.failed⟩ := by
  unfold apply
  rw [Prog.run_bind_ok (run_copyBinary env h failed),
    Prog.run_bind_ok (run_write env _ failed .sysusersFile Dist.sysusers 0o644),
    Prog.run_bind_ok (run_sysusers env _ failed _),
    Prog.run_bind_ok (run_writeTemplate env _ failed), Prog.run_bind_ok_iff]
  apply exists_congr
  intro certificate
  apply exists_congr
  intro u
  apply and_congr_right
  intro _
  rw [Prog.run_bind_ok (run_write env u.host u.failed .unitFile Dist.unit 0o644),
    Prog.run_bind_ok (run_startService env _ u.failed), Prog.run_bind_ok_iff]
  constructor
  · intro ⟨tls, v, hload, hdone⟩
    obtain ⟨text, config, htext, hconfig, rfl, rfl⟩ := (run_loadTls_ok env _ u.failed).mp hload
    cases hdone
    exact ⟨text, config, by simpa using htext, hconfig, rfl, rfl⟩
  · intro ⟨text, config, htext, hconfig, hdone, hw⟩
    refine ⟨config.tls.isSome, _, (run_loadTls_ok env _ u.failed).mpr
      ⟨text, config, ?_, hconfig, rfl, rfl⟩, ?_⟩
    · simpa using htext
    · rw [hdone, hw]
      rfl

theorem run_writeSelfSigned {name : String} {certificate : Certificate} {w : World} :
    (writeSelfSigned name).run env.calm.answer ⟨h, failed⟩ = (.ok certificate, w) ↔
      ∃ owner text edited, userIds (h.text .passwdFile) "lodger" = some owner ∧
        h.read .configFile = some text ∧ tlsText text = .ok edited ∧
        certificate = ⟨name, env.pair.fingerprint, env.pair.notAfter⟩ ∧
        w = ⟨((h.put .tlsKey ⟨env.pair.keyPem, 0o600, some owner⟩).put .tlsCert
          ⟨env.pair.certPem, 0o644, none⟩).put .configFile ⟨edited, 0o644, none⟩, failed⟩ := by
  have hpair : (mapError (.cannotMake name) (ask (.selfSigned name))).run env.calm.answer
      ⟨h, failed⟩ = (.ok env.pair, ⟨h, failed⟩) := rfl
  obtain ⟨users, husers, htext⟩ := run_users env h failed
  unfold writeSelfSigned
  rw [Prog.run_bind_ok hpair, Prog.run_bind_ok husers, htext]
  cases howner : userIds (h.text .passwdFile) "lodger" with
  | none =>
      constructor
      · intro hrun
        cases hrun
      · intro ⟨owner, text, edited, hsome, _⟩
        cases hsome
  | some owner =>
      simp only
      rw [Prog.run_bind_ok (run_writeAs env h failed .tlsKey env.pair.keyPem 0o600 (some owner)),
        Prog.run_bind_ok (run_write env _ failed .tlsCert env.pair.certPem 0o644),
        Prog.run_bind_ok_iff]
      constructor
      · intro ⟨_, u, hset, hdone⟩
        obtain ⟨text, edited, htext, hedited, rfl⟩ := (run_setTlsPaths_ok env _ failed).mp hset
        cases hdone
        exact ⟨owner, text, edited, rfl, by simpa using htext, hedited, rfl, rfl⟩
      · intro ⟨owner', text, edited, howner', htext, hedited, hcertificate, hw⟩
        cases howner'
        refine ⟨(), _, (run_setTlsPaths_ok env _ failed).mpr ⟨text, edited, ?_, hedited, rfl⟩, ?_⟩
        · simpa using htext
        · rw [hcertificate, hw]
          rfl

theorem run_apply_ok [Dist] {selfSigned : Option String} {listen : SocketAddr} {w : World} :
    (∃ done, (apply selfSigned listen).run env.calm.answer ⟨h, failed⟩ = (.ok done, w)) ↔
      ∃ whole, Completes env selfSigned h whole ∧ w = ⟨whole, failed⟩ := by
  cases selfSigned with
  | none =>
      constructor
      · intro ⟨done, hrun⟩
        obtain ⟨certificate, u, hmake, text, config, htext, hload, _, hw⟩ :=
          (run_apply env h failed).mp hrun
        cases hmake
        rw [prepared_config] at htext
        cases htext
        exact ⟨_, ⟨none, _, config, rfl, rfl, hload, rfl⟩, by rw [hw, prepared_unit]⟩
      · intro ⟨whole, ⟨pair, file, config, hpair, hfile, hload, hwhole⟩, hw⟩
        cases hpair
        cases hfile
        refine ⟨_, (run_apply env h failed).mpr ⟨none, _, rfl, _, config,
          prepared_config env.exe h, hload, rfl, ?_⟩⟩
        rw [prepared_unit, hw, hwhole]
  | some name =>
      constructor
      · intro ⟨done, hrun⟩
        obtain ⟨certificate, u, hmake, text, config, htext, hload, _, hw⟩ :=
          (run_apply env h failed).mp hrun
        obtain ⟨made, v, hwrite, hmade⟩ := Prog.run_bind_eq_ok hmake
        cases hmade
        obtain ⟨owner, base, edited, howner, hbase, hedited, _, rfl⟩ :=
          (run_writeSelfSigned env _ failed).mp hwrite
        rw [prepared_users] at howner
        rw [prepared_config] at hbase
        cases hbase
        rw [read_put, if_pos rfl] at htext
        cases htext
        refine ⟨_, ⟨some (⟨env.pair.certPem, 0o644, none⟩, ⟨env.pair.keyPem, 0o600, some owner⟩),
          ⟨edited, 0o644, none⟩, config, ?_, ?_, hload, rfl⟩, ?_⟩
        · simp [pairAfter, ownerAfter, howner]
        · simp [configAfter, hedited, Except.toOption]
        · rw [hw, prepared_pair_unit]
      · intro ⟨whole, ⟨pair, file, config, hpair, hfile, hload, hwhole⟩, hw⟩
        obtain ⟨owner, howner, rfl⟩ := Option.map_eq_some_iff.mp hpair
        obtain ⟨edited, hedited, rfl⟩ := Option.map_eq_some_iff.mp hfile
        have htext : tlsText (baseConfig h).bytes = .ok edited := by
          cases htls : tlsText (baseConfig h).bytes with
          | error e =>
              rw [htls] at hedited
              cases hedited
          | ok text =>
              rw [htls] at hedited
              cases hedited
              rfl
        have hwrite : (writeSelfSigned name).run env.calm.answer ⟨prepared env.exe h, failed⟩ =
            (.ok ⟨name, env.pair.fingerprint, env.pair.notAfter⟩, _) :=
          (run_writeSelfSigned env (prepared env.exe h) failed).mpr
            ⟨owner, _, edited, (prepared_users env.exe h).symm ▸ howner,
              prepared_config env.exe h, htext, rfl, rfl⟩
        have hmake : (makeCertificate (some name)).run env.calm.answer
            ⟨prepared env.exe h, failed⟩ = (.ok (some _), _) := Prog.run_bind_ok hwrite
        refine ⟨_, (run_apply env h failed).mpr ⟨_, _, hmake, edited, config, ?_, hload, rfl, ?_⟩⟩
        · rw [read_put, if_pos rfl]
        · rw [prepared_pair_unit, hw, hwhole]

end Calm

end Lodger.Install
