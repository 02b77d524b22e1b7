import Lodger.Install.Complete

namespace Lodger.Install

open Lodger.Lib
open Config (DEFAULT_LISTEN Formats)

-- A host on which a part of an install has been done.
section Begun

variable [Dist] [Formats]

-- The paths that an install writes over, whatever is there.
def loose (selfSigned : Option String) (h : Host) : Path → Bool
  | .file .bin | .file .sysusersFile | .new .bin | .new .sysusersFile | .new .unitFile => true
  | .file .tlsCert | .file .tlsKey | .new .tlsCert | .new .tlsKey => selfSigned.isSome
  | .new .configFile => selfSigned.isSome || !h.has .configFile
  | _ => false

inductive ConfigBegun (selfSigned : Option String) (h t : Host) : Prop where
  | found (same : t.files (.file .configFile) = h.files (.file .configFile))
  -- Without a pair, the next install finds a file and leaves the temporary file as it is.
  | wrote (absent : h.files (.file .configFile) = none)
      (now : t.files (.file .configFile) = some template)
      (dir : t.isDir Target.configFile.dir)
      (clean : selfSigned.isSome ∨ t.files (.new .configFile) = none)
  | edited (pair : selfSigned.isSome) (text : String)
      (edit : tlsText (baseConfig h).bytes = .ok text)
      (now : t.files (.file .configFile) = some ⟨text, 0o644, none⟩)

variable {selfSigned : Option String} {h t u : Host}

theorem ConfigBegun.congr (hbegun : ConfigBegun selfSigned h t)
    (hfile : u.files (.file .configFile) = t.files (.file .configFile))
    (hdir : t.isDir Target.configFile.dir → u.isDir Target.configFile.dir)
    (hnew : t.files (.new .configFile) = none → u.files (.new .configFile) = none) :
    ConfigBegun selfSigned h u := by
  cases hbegun with
  | found same => exact .found (hfile.trans same)
  | wrote absent now dir clean =>
      exact .wrote absent (hfile.trans now) (hdir dir) (clean.imp_right hnew)
  | edited pair text edit now => exact .edited pair text edit (hfile.trans now)

-- The configuration that the next install reads.
theorem ConfigBegun.absent (hbegun : ConfigBegun selfSigned h t)
    (hno : t.files (.file .configFile) = none) : h.files (.file .configFile) = none := by
  cases hbegun with
  | found same => rw [← same, hno]
  | wrote absent now dir clean => exact absent
  | edited pair text edit now =>
      rw [now] at hno
      cases hno

theorem ConfigBegun.base (hbegun : ConfigBegun selfSigned h t) :
    baseConfig t = baseConfig h ∨ selfSigned.isSome ∧ ∃ text,
      tlsText (baseConfig h).bytes = .ok text ∧ baseConfig t = ⟨text, 0o644, none⟩ := by
  cases hbegun with
  | found same => exact Or.inl (by unfold baseConfig; rw [same])
  | wrote absent now dir clean => exact Or.inl (by unfold baseConfig; rw [absent, now]; rfl)
  | edited pair text edit now =>
      exact Or.inr ⟨pair, text, edit, by unfold baseConfig; rw [now]; rfl⟩

theorem ConfigBegun.has (hbegun : ConfigBegun selfSigned h t) (hhas : h.has .configFile) :
    t.has .configFile := by
  cases hbegun with
  | found same =>
      unfold Host.has at hhas ⊢
      rw [same]
      exact hhas
  | wrote absent now dir clean => simp [Host.has, now]
  | edited pair text edit now => simp [Host.has, now]

-- The directories that an install of this host needs.
def needed (selfSigned : Option String) (h : Host) : List Dir :=
  written selfSigned.isSome (h.has .configFile)

variable [Sysusers]

structure Begun (selfSigned : Option String) (h t : Host) : Prop where
  kept : ∀ p, loose selfSigned h p = false →
    p ∉ [.file .unitFile, .file .configFile, .file .passwdFile, .file .groupFile] →
      t.files p = h.files p
  unit : h.has .unitFile → t.has .unitFile
  accounts : t.accounts = h.accounts ∨ t.accounts = Sysusers.add h.accounts
  config : ConfigBegun selfSigned h t
  dirs : DirTree.Grown 0o755 (needed selfSigned h) h.dirs t.dirs

theorem Begun.refl : Begun selfSigned h h :=
  ⟨fun _ _ _ => rfl, id, Or.inl rfl, .found rfl, .refl⟩

theorem Begun.systemd (hbegun : Begun selfSigned h t) : t.systemdRunning = h.systemdRunning := by
  unfold Host.systemdRunning Host.isDir
  cases hbegun.dirs SYSTEMD_RUNNING with
  | inl hsame => rw [hsame]
  | inr hnew =>
      obtain ⟨⟨d, hd, hsuffix⟩, _⟩ := hnew
      have hnot : ∀ signed found, ∀ d ∈ written signed found, ¬SYSTEMD_RUNNING <:+ d := by decide
      exact absurd hsuffix (hnot _ _ d hd)

-- A step that keeps the other files.
theorem Begun.frame (hbegun : Begun selfSigned h t) (ps : List Path)
    (hsame : ∀ q ∉ ps, u.files q = t.files q) (hdirs : u.dirs = t.dirs)
    (hps : ∀ q ∈ ps, loose selfSigned h q ∨ q = .file .configFile)
    (hconfig : ConfigBegun selfSigned h u) : Begun selfSigned h u := by
  have hother : ∀ q, loose selfSigned h q = false → q ≠ .file .configFile →
      u.files q = t.files q := by
    intro q hq hfile
    apply hsame
    intro hmem
    cases hps q hmem with
    | inl hloose => rw [hq] at hloose; cases hloose
    | inr heq => exact hfile heq
  refine ⟨?_, ?_, ?_, hconfig, hdirs ▸ hbegun.dirs⟩
  · intro q hq hown
    have hfile : q ≠ .file .configFile := by
      intro hfile
      simp [hfile] at hown
    rw [hother q hq hfile]
    exact hbegun.kept q hq hown
  · unfold Host.has
    rw [hother (.file .unitFile) rfl (by simp)]
    exact hbegun.unit
  · have haccounts : u.accounts = t.accounts := by
      unfold Host.accounts
      rw [hother (.file .passwdFile) rfl (by simp), hother (.file .groupFile) rfl (by simp)]
    rw [haccounts]
    exact hbegun.accounts

theorem Begun.set (hbegun : Begun selfSigned h t) {p : Path} (hp : loose selfSigned h p)
    (hnew : p ≠ .new .configFile) (x : Option File) : Begun selfSigned h (t.set p x) := by
  have hfile : .file .configFile ≠ p := by
    intro hfile
    rw [← hfile] at hp
    cases hp
  refine hbegun.frame [p] ?_ rfl ?_ (hbegun.config.congr ?_ id ?_)
  · intro q hq
    exact files_set_ne t q p x (by simpa using hq)
  · intro q hq
    rw [List.mem_singleton.mp hq]
    exact Or.inl hp
  · exact files_set_ne t _ p x hfile
  · rw [files_set_ne t _ p x hnew.symm]
    exact id

theorem Begun.makeDir (hbegun : Begun selfSigned h t) {d e : Dir} (hd : d ∈ needed selfSigned h)
    (he : e <:+ d) : Begun selfSigned h (t.makeDir e) :=
  ⟨hbegun.kept, hbegun.unit, hbegun.accounts, hbegun.config.congr rfl DirTree.isSome_ensure id,
    hbegun.dirs.ensure hd he⟩

theorem Begun.config_dir (hbegun : Begun selfSigned h t)
    (hmay : selfSigned.isSome ∨ t.files (.file .configFile) = none) :
    Target.configFile.dir ∈ needed selfSigned h := by
  cases hmay with
  | inl hpair => simp [needed, written, hpair]
  | inr hno => simp [needed, written, Host.has, hbegun.config.absent hno]

theorem Begun.loose_new (hbegun : Begun selfSigned h t)
    (hmay : selfSigned.isSome ∨ t.files (.file .configFile) = none) :
    loose selfSigned h (.new .configFile) := by
  cases hmay with
  | inl hpair => simp [loose, hpair]
  | inr hno => simp [loose, Host.has, hbegun.config.absent hno]

theorem Begun.set_newConfig (hbegun : Begun selfSigned h t)
    (hmay : selfSigned.isSome ∨ t.files (.file .configFile) = none) (x : Option File) :
    Begun selfSigned h (t.set (.new .configFile) x) := by
  have hfile : (t.set (.new .configFile) x).files (.file .configFile) =
      t.files (.file .configFile) := files_set_ne t _ _ x (by simp)
  refine hbegun.frame [.new .configFile] ?_ rfl ?_ ?_
  · intro q hq
    exact files_set_ne t q _ x (by simpa using hq)
  · intro q hq
    rw [List.mem_singleton.mp hq]
    exact Or.inl (hbegun.loose_new hmay)
  · cases hbegun.config with
    | found same => exact .found (hfile.trans same)
    | wrote absent now dir clean =>
        refine .wrote absent (hfile.trans now) dir (Or.inl ?_)
        cases hmay with
        | inl hpair => exact hpair
        | inr hno =>
            rw [now] at hno
            cases hno
    | edited pair text edit now => exact .edited pair text edit (hfile.trans now)

theorem Begun.put_config (hbegun : Begun selfSigned h t)
    (hmay : selfSigned.isSome ∨ t.files (.file .configFile) = none) {file : File}
    (hconfig : ConfigBegun selfSigned h (t.put .configFile file)) :
    Begun selfSigned h (t.put .configFile file) := by
  have hmade := hbegun.makeDir (hbegun.config_dir hmay) List.suffix_rfl
  refine hmade.frame [.file .configFile, .new .configFile] ?_ rfl ?_ hconfig
  · intro q hq
    simp only [List.mem_cons, List.not_mem_nil, or_false, not_or] at hq
    exact (files_set_ne _ q _ none hq.2).trans (files_set_ne _ q _ _ hq.1)
  · intro q hq
    simp only [List.mem_cons, List.not_mem_nil, or_false] at hq
    cases hq with
    | inl hfile => exact Or.inr hfile
    | inr hnew =>
        rw [hnew]
        exact Or.inl (hbegun.loose_new hmay)

theorem Begun.put_template (hbegun : Begun selfSigned h t)
    (hno : t.files (.file .configFile) = none) :
    Begun selfSigned h (t.put .configFile template) :=
  hbegun.put_config (Or.inr hno) (.wrote (hbegun.config.absent hno) (by simp [files_put])
    (isDir_makeDir t Target.configFile.dir) (Or.inr (by simp [files_put])))

theorem Begun.put_edited [LawfulFormats] (hbegun : Begun selfSigned h t)
    (hpair : selfSigned.isSome) {file : File} {text : String}
    (hfile : t.files (.file .configFile) = some file) (hedit : tlsText file.bytes = .ok text) :
    Begun selfSigned h (t.put .configFile ⟨text, 0o644, none⟩) := by
  refine hbegun.put_config (Or.inl hpair) (.edited hpair text ?_ (by simp [files_put]))
  have hbase : baseConfig t = file := by
    unfold baseConfig
    rw [hfile]
    rfl
  cases hbegun.config.base with
  | inl hsame => rw [← hsame, hbase, hedit]
  | inr hedited =>
      obtain ⟨_, before, hbefore, heq⟩ := hedited
      rw [hbase] at heq
      rw [heq, LawfulFormats.tlsText_tlsText hbefore] at hedit
      rw [← hedit, hbefore]

theorem Begun.put (hbegun : Begun selfSigned h t) {u : Target}
    (hdir : u.dir ∈ needed selfSigned h) (hfile : loose selfSigned h (.file u))
    (hnew : loose selfSigned h (.new u)) (file : File) : Begun selfSigned h (t.put u file) := by
  have hu : u ≠ .configFile := by
    intro hu
    rw [hu] at hfile
    cases hfile
  exact ((hbegun.makeDir hdir List.suffix_rfl).set hfile (by simp) _).set hnew
    (by simpa using hu) _

theorem Begun.put_unit (hbegun : Begun selfSigned h t) (file : File) :
    Begun selfSigned h (t.put .unitFile file) := by
  have hmade := hbegun.makeDir (d := Target.unitFile.dir) (by simp [needed, written])
    List.suffix_rfl
  have hset : Begun selfSigned h ((t.makeDir Target.unitFile.dir).set (.file .unitFile)
      (some file)) := by
    refine ⟨?_, ?_, ?_, ?_, hmade.dirs⟩
    · intro q hq hown
      have hne : q ≠ .file .unitFile := by
        intro hne
        simp [hne] at hown
      rw [files_set_ne _ q _ _ hne]
      exact hmade.kept q hq hown
    · simp
    · rw [accounts_set _ _ _ (by simp) (by simp)]
      exact hmade.accounts
    · apply hmade.config.congr
      · exact files_set_ne _ _ _ _ (by simp)
      · exact id
      · rw [files_set_ne _ _ _ _ (by simp)]
        exact id
  exact hset.set rfl (by simp) none

theorem Begun.addUser [LawfulSysusers] (hbegun : Begun selfSigned h t) :
    Begun selfSigned h t.addUser := by
  refine ⟨?_, ?_, ?_, ?_, hbegun.dirs⟩
  · intro q hq hown
    have hpasswd : q ≠ .file .passwdFile := by
      intro hpasswd
      simp [hpasswd] at hown
    have hgroup : q ≠ .file .groupFile := by
      intro hgroup
      simp [hgroup] at hown
    unfold Host.addUser
    rw [files_set_ne _ q _ _ hgroup, files_set_ne t q _ _ hpasswd]
    exact hbegun.kept q hq hown
  · simpa [Host.addUser] using hbegun.unit
  · have hadd : t.addUser.accounts = Sysusers.add t.accounts := by
      simp [Host.addUser, Host.accounts]
    right
    rw [hadd]
    cases hbegun.accounts with
    | inl hsame => rw [hsame]
    | inr hadded => rw [hadded, LawfulSysusers.add_add]
  · apply hbegun.config.congr
    · simp [Host.addUser]
    · exact id
    · simp [Host.addUser]

end Begun

-- What the rest of the install makes of such a host.
section Rest

variable [Sysusers]

theorem ownerAfter_eq (h : Host) : ownerAfter h =
    userIds (((Sysusers.add h.accounts).passwd.map File.bytes).getD "") "lodger" := by
  simp [ownerAfter, Host.text, Host.read, Host.addUser]

variable [Dist] [Formats] {selfSigned : Option String} {h t : Host} {exe : String} {config : File}

theorem Begun.newConfig_eq (hbegun : Begun none h t) :
    (installed exe none config t).files (.new .configFile) =
      (installed exe none config h).files (.new .configFile) := by
  simp only [installed, Option.isSome_none, Bool.false_or, Bool.not_eq_true', Host.has]
  cases hbegun.config with
  | found same =>
      rw [same]
      by_cases hhas : (h.files (.file .configFile)).isSome = false
      · rw [if_pos hhas, if_pos hhas]
      · rw [if_neg hhas, if_neg hhas]
        apply hbegun.kept
        · simpa [loose, Host.has, Option.isSome_iff_ne_none] using hhas
        · simp
  | wrote absent now dir clean =>
      rw [absent, now]
      simpa using clean
  | edited pair text edit now => cases pair

theorem Begun.configAfter_eq [LawfulFormats] (hbegun : Begun selfSigned h t) :
    configAfter selfSigned t = configAfter selfSigned h := by
  cases hbegun.config.base with
  | inl hsame => unfold configAfter; rw [hsame]
  | inr hedited =>
      obtain ⟨hpair, text, htext, hbase⟩ := hedited
      obtain ⟨name, rfl⟩ := Option.isSome_iff_exists.mp hpair
      unfold configAfter
      simp only
      rw [hbase, htext, LawfulFormats.tlsText_tlsText htext]

-- What an install of `t` does not need any more is there.
theorem Begun.rest_dirs (hbegun : Begun selfSigned h t) :
    t.dirs.ensureAll 0o755 (needed selfSigned t) = h.dirs.ensureAll 0o755 (needed selfSigned h) := by
  apply hbegun.dirs.ensureAll_eq
  · exact fun _ => mem_written_of_found hbegun.config.has
  · intro d hd hout
    obtain ⟨rfl, hunsigned, hmissing, hfound⟩ := eq_config_of_not_written hd hout
    cases hbegun.config with
    | found same =>
        unfold Host.has at hmissing hfound
        rw [same, hmissing] at hfound
        cases hfound
    | wrote absent now dir clean => exact dir
    | edited pair text edit now =>
        rw [hunsigned] at pair
        cases pair

theorem Completes.dirs [Tls] {env : Env} {whole : Host}
    (hwhole : Completes env selfSigned h whole) :
    whole.dirs = h.dirs.ensureAll 0o755 (needed selfSigned h) := by
  obtain ⟨pair, config, loaded, hpair, _, _, rfl⟩ := hwhole
  simp only [installed, needed]
  rw [isSome_pairAfter hpair]

variable [LawfulSysusers]

theorem Begun.add_accounts (hbegun : Begun selfSigned h t) :
    Sysusers.add t.accounts = Sysusers.add h.accounts := by
  cases hbegun.accounts with
  | inl hsame => rw [hsame]
  | inr hadded => rw [hadded, LawfulSysusers.add_add]

theorem Begun.installed_eq (hbegun : Begun selfSigned h t)
    {pair : Option (File × File)} (hpair : pair.isSome = selfSigned.isSome) :
    installed exe pair config t = installed exe pair config h := by
  have hkept := hbegun.kept
  have hlibvirt := hkept (.file .libvirtSock) rfl (by simp)
  have hvirtqemud := hkept (.file .virtqemudSock) rfl (by simp)
  have hadd := hbegun.add_accounts
  ext1
  · funext p
    cases p with
    | file u =>
        cases u with
        | tlsCert =>
            cases pair with
            | some made => rfl
            | none => exact hkept _ (by simpa [loose] using hpair.symm) (by simp)
        | tlsKey =>
            cases pair with
            | some made => rfl
            | none => exact hkept _ (by simpa [loose] using hpair.symm) (by simp)
        | _ => simp [installed, hadd, hlibvirt, hvirtqemud]
    | new u =>
        cases u with
        | configFile =>
            cases pair with
            | some made => rfl
            | none =>
                obtain rfl : selfSigned = none := by simpa using hpair.symm
                exact hbegun.newConfig_eq
        | tlsCert =>
            cases pair with
            | some made => rfl
            | none => exact hkept _ (by simpa [loose] using hpair.symm) (by simp)
        | tlsKey =>
            cases pair with
            | some made => rfl
            | none => exact hkept _ (by simpa [loose] using hpair.symm) (by simp)
        | _ => first | rfl | exact hkept _ rfl (by simp)
  · simp only [installed]
    rw [hpair]
    exact hbegun.rest_dirs

variable [Tls]

theorem Begun.pairAfter_eq (hbegun : Begun selfSigned h t) (pair : SelfSigned) :
    pairAfter pair selfSigned t = pairAfter pair selfSigned h := by
  unfold pairAfter
  rw [ownerAfter_eq, ownerAfter_eq, hbegun.add_accounts]

variable [LawfulFormats]

theorem Begun.completes (hbegun : Begun selfSigned h t) {env : Env} {whole : Host}
    (hwhole : Completes env selfSigned h whole) : Completes env selfSigned t whole := by
  obtain ⟨pair, config, loaded, hpair, hconfig, hload, rfl⟩ := hwhole
  exact ⟨pair, config, loaded, (hbegun.pairAfter_eq env.pair).trans hpair,
    hbegun.configAfter_eq.trans hconfig, hload, (hbegun.installed_eq (isSome_pairAfter hpair)).symm⟩

end Rest

-- The checks on such a host, up to the files of the pair.
section Checks

variable [Dist] [Formats] [LawfulFormats] {selfSigned : Option String} {h t : Host}
  {accepts : SocketAddr → Bool} {listen : SocketAddr}

theorem checkConfig_eq_iff : checkConfig h selfSigned = (some listen, []) ↔
    ∃ config, Config.load (baseConfig h).bytes = .ok config ∧ config.listen = listen ∧
      configProblems selfSigned config = [] := by
  unfold checkConfig Host.read baseConfig
  cases h.files (.file .configFile) with
  | none =>
      have htemplate : Config.load template.bytes = .ok ⟨DEFAULT_LISTEN, none, [], none, false⟩ :=
        load_template
      have hproblems : configProblems selfSigned ⟨DEFAULT_LISTEN, none, [], none, false⟩ = [] := by
        cases selfSigned with
        | none => rfl
        | some name => rfl
      simp only [Option.map_none, Option.getD_none, htemplate, Except.ok.injEq, Prod.mk.injEq,
        Option.some.injEq, and_true, exists_eq_left', hproblems]
  | some file =>
      simp only [Option.map_some, Option.getD_some]
      cases Config.load file.bytes with
      | error e => simp
      | ok config => simp

variable [Sysusers]

theorem Begun.checkConfig_eq (hbegun : Begun selfSigned h t)
    (hconfig : checkConfig h selfSigned = (some listen, [])) :
    checkConfig t selfSigned = (some listen, []) := by
  obtain ⟨config, hload, hlisten, hproblems⟩ := checkConfig_eq_iff.mp hconfig
  apply checkConfig_eq_iff.mpr
  cases hbegun.config.base with
  | inl hsame =>
      rw [hsame]
      exact ⟨config, hload, hlisten, hproblems⟩
  | inr hedited =>
      obtain ⟨hpair, text, htext, hbase⟩ := hedited
      rw [hbase]
      refine ⟨_, load_tlsText htext hload, hlisten, ?_⟩
      simp [configProblems, Option.isSome_iff_ne_none.mp hpair]

theorem Begun.ready [Tls] [LawfulSysusers] (hbegun : Begun selfSigned h t)
    (hready : Ready h selfSigned accepts listen)
    (hpair : selfSigned.isSome → foreignPair t = none) : Ready t selfSigned accepts listen := by
  refine ⟨hready.name, hpair, ?_, ?_, ?_, hbegun.checkConfig_eq hready.config, ?_⟩
  · exact hbegun.systemd.trans hready.systemd
  · unfold Host.has
    rw [hbegun.kept (.file .libvirtSock) rfl (by simp),
      hbegun.kept (.file .virtqemudSock) rfl (by simp)]
    exact hready.socket
  · have hgroup : ∀ host : Host, host.text .groupFile =
        (host.accounts.group.map File.bytes).getD "" := fun _ => rfl
    have hbefore := hready.group
    rw [hgroup] at hbefore ⊢
    cases hbegun.accounts with
    | inl hsame =>
        rw [hsame]
        exact hbefore
    | inr hadded =>
        rw [hadded]
        exact LawfulSysusers.keeps_group h.accounts "libvirt" hbefore
  · exact hready.port.imp_left hbegun.unit

end Checks

end Lodger.Install
