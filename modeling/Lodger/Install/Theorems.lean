import Lodger.Install.Stages

namespace Lodger.Install

open Lodger.Lib
open Config (Formats)

section Again

variable [Dist] [Tls] [Sysusers] [Formats] {selfSigned : Option String}
  {accepts : SocketAddr → Bool} {h : Host}

theorem install_run_ok {listen : SocketAddr} (env : Env)
    (hcheck : check h selfSigned accepts = .ok listen) :
    (install selfSigned accepts).run env.answer ⟨h, none⟩ =
      (apply selfSigned listen).run env.answer ⟨h, none⟩ := by
  have hlook : (ask .look).run env.answer ⟨h, none⟩ = (.ok h, ⟨h, none⟩) := rfl
  unfold install
  rw [Prog.run_bind_ok hlook, hcheck]
  rfl

theorem install_run_error {problems : List Problem} (env : Env)
    (hcheck : check h selfSigned accepts = .error problems) :
    (install selfSigned accepts).run env.answer ⟨h, none⟩ =
      (.error (.cannotInstall problems), ⟨h, none⟩) := by
  have hlook : (ask .look).run env.answer ⟨h, none⟩ = (.ok h, ⟨h, none⟩) := rfl
  unfold install
  rw [Prog.run_bind_ok hlook, hcheck]
  rfl

-- An install that nothing interrupts.
theorem install_calm_iff (env : Env) (whole : Host) :
    (∃ done, (install selfSigned accepts).run env.calm.answer ⟨h, none⟩ =
      (.ok done, ⟨whole, none⟩)) ↔
      (∃ listen, Ready h selfSigned accepts listen) ∧ Completes env selfSigned h whole := by
  cases hcheck : check h selfSigned accepts with
  | error problems =>
      rw [install_run_error env.calm hcheck]
      constructor
      · intro ⟨done, hrun⟩
        cases hrun
      · intro ⟨⟨listen, hready⟩, _⟩
        rw [check_eq_ok_iff.mpr hready] at hcheck
        cases hcheck
  | ok listen =>
      rw [install_run_ok env.calm hcheck, run_apply_ok]
      constructor
      · intro ⟨_, hcompletes, heq⟩
        cases heq
        exact ⟨⟨listen, check_eq_ok_iff.mp hcheck⟩, hcompletes⟩
      · intro ⟨_, hcompletes⟩
        exact ⟨whole, hcompletes, rfl⟩

-- A directory that is there when an install starts keeps its mode.
theorem Completes.mode_eq {t whole : Host} {env : Env} {d : Dir} {mode : Nat}
    (hwhole : Completes env selfSigned h whole) (hagain : Completes env selfSigned t whole)
    (hneed : ∃ e ∈ needed selfSigned h, d <:+ e) (hmissing : h.dirs.get d = none)
    (hmode : t.dirs.get d = some mode) : mode = 0o755 := by
  have hdirs := congrArg (DirTree.get · d) (hagain.dirs.symm.trans hwhole.dirs)
  simp only [DirTree.get_ensureAll, hmode, hmissing] at hdirs
  rw [if_pos hneed] at hdirs
  simpa using hdirs

variable [LawfulFormats] [LawfulSysusers]

theorem stopped_of_run {listen : SocketAddr} {env : Env} {e : InstallError} {t : World}
    (hready : Ready h selfSigned accepts listen)
    (hrun : (apply selfSigned listen).run env.answer ⟨h, none⟩ = (.error e, t)) :
    Stopped env selfSigned h t := by
  have hfits : Fits selfSigned (h.files (.file .tlsCert)) (h.files (.file .tlsKey)) := by
    intro hsigned host hcert hkey
    rw [foreignPair_congr hcert hkey]
    exact hready.pair hsigned
  have hstage : Stage env selfSigned h (apply selfSigned listen) ⟨h, none⟩ fun _ _ => True :=
    stage_apply hfits listen
  have hend := hstage.along (Prog.along_trivial _)
  rw [hrun] at hend
  exact hend

-- A run after a failed one goes through and leaves what a run without the failure leaves, unless
-- the new key is in place and the certificate is not, and an old certificate does not fit the key,
-- or a new directory has not got its mode, and the umask left another one.
theorem failed_install_runs_again (h : Host) (selfSigned : Option String)
    (accepts : SocketAddr → Bool) (env again : Env)
    {listen : SocketAddr} (hcheck : check h selfSigned accepts = .ok listen)
    {e : InstallError} {t : World}
    (hfails : (install selfSigned accepts).run env.answer ⟨h, none⟩ = (.error e, t))
    {done : Installed} {whole : Host}
    (hwhole : (install selfSigned accepts).run again.calm.answer ⟨h, none⟩ =
      (.ok done, ⟨whole, none⟩)) :
    (∃ done', (install selfSigned accepts).run again.calm.answer ⟨t.host, none⟩ =
      (.ok done', ⟨whole, none⟩)) ↔
      (∀ c, t.failed = some c → c.writes = some .tlsCert →
        ∃ cert, h.files (.file .tlsCert) = some cert ∧
          Tls.serverConfig cert.bytes env.pair.keyPem) ∧
      ∀ d, t.failed = some (.setMode d 0o755) → env.newDirMode = 0o755 := by
  have hready := check_eq_ok_iff.mp hcheck
  rw [install_run_ok env hcheck] at hfails
  have hcompletes := ((install_calm_iff again whole).mp ⟨done, hwhole⟩).2
  rw [install_calm_iff]
  cases stopped_of_run hready hfails with
  | fits hbegun hpair hfailed =>
      constructor
      · intro _
        constructor
        · intro c hc hcert
          exact absurd hcert (writes_of_recovers (hfailed c hc))
        · intro d hd
          exact (hfailed _ hd).elim
      · intro _
        exact ⟨⟨listen, hbegun.ready hready hpair⟩, hbegun.completes hcompletes⟩
  | keyOnly hbegun hsigned hcert hkey hfailed =>
      obtain ⟨c, hc, hwrites⟩ := hfailed
      obtain ⟨file, hfile, hbytes⟩ := hkey
      have hpair := foreignPair_new_key (hready.pair hsigned) hcert hfile
      rw [hbytes] at hpair
      constructor
      · intro hagain
        obtain ⟨⟨_, hagain⟩, _⟩ := hagain
        constructor
        · exact fun _ _ _ => hpair.mp (hagain.pair hsigned)
        · intro d hd
          rw [hc] at hd
          cases hd
          cases hwrites
      · intro hfit
        have hnone := hpair.mpr (hfit.1 c hc hwrites)
        exact ⟨⟨listen, hbegun.ready hready fun _ => hnone⟩, hbegun.completes hcompletes⟩
  | noMode d hneed hmissing hmode hbegun hpair hfailed =>
      constructor
      · intro hagain
        constructor
        · intro c hc hcert
          rw [hfailed] at hc
          cases hc
          cases hcert
        · exact fun _ _ => hcompletes.mode_eq hagain.2 hneed hmissing hmode
      · intro hfit
        have hsame : t.host.setDir d 0o755 = t.host := by
          rw [hfit.2 d hfailed] at hmode
          exact Host.ext rfl (DirTree.put_self hmode)
        rw [hsame] at hbegun
        exact ⟨⟨listen, hbegun.ready hready hpair⟩, hbegun.completes hcompletes⟩

end Again

-- A fresh host, and the crates and programs as they treat its texts.
section FreshHost

local instance freshDist : Dist where
  unit := "[Service]\nExecStart=/usr/local/bin/lodger\n"
  sysusers := "u lodger - \"Lodger\"\n"
  config := "listen = \"127.0.0.1:8460\"\n"

def signedConfig : String := "listen = \"127.0.0.1:8460\"\n" ++
  "tls_cert = \"/etc/lodger/tls/cert.pem\"\ntls_key = \"/etc/lodger/tls/key.pem\"\n"

-- A document is known by the keys of the pair that it sets.
local instance freshFormats : Formats where
  Document := Bool × Bool
  file text :=
    if text = Dist.config then .ok ⟨some Config.DEFAULT_LISTEN, none, [], none, none, false⟩
    else if text = signedConfig then
      .ok ⟨some Config.DEFAULT_LISTEN, none, [], some selfSignedFiles.cert,
        some selfSignedFiles.key, false⟩
    else .error "TOML parse error"
  uri _ := none
  document text :=
    if text = Dist.config then .ok (false, false)
    else if text = signedConfig then .ok (true, true)
    else .error "TOML parse error"
  set doc key _ := (doc.1 || key = "tls_cert", doc.2 || key = "tls_key")
  render doc := if doc.1 && doc.2 then signedConfig else Dist.config

local instance freshTls : Tls where
  madeByLodger pem := pem = "certificate 1" || pem = "certificate 2"
  serverConfig cert key :=
    (cert, key) = ("certificate 1", "key 1") || (cert, key) = ("certificate 2", "key 2")

def freshAccounts : Accounts where
  passwd := some ⟨"root:x:0:0:root:/root:/bin/bash\n", 0o644, none⟩
  group := some ⟨"root:x:0:\nlibvirt:x:120:\n", 0o644, none⟩

def addedAccounts : Accounts where
  passwd := some ⟨"root:x:0:0:root:/root:/bin/bash\nlodger:x:990:990::/:/usr/sbin/nologin\n",
    0o644, none⟩
  group := some ⟨"root:x:0:\nlibvirt:x:120:\nlodger:x:990:\n", 0o644, none⟩

local instance freshSysusers : Sysusers where
  add accounts := if accounts = freshAccounts then addedAccounts else accounts

def rootOnly : DirTree String Nat where
  get d := if d = [] then some 0o755 else none
  root := rfl
  closed := by simp

-- The directories of a new host, each after its parent.
def freshDirs : List Dir :=
  [["usr"], ["local", "usr"], ["bin", "local", "usr"], ["etc"], ["sysusers.d", "etc"],
    ["systemd", "etc"], ["system", "systemd", "etc"], ["run"], ["libvirt", "run"],
    ["systemd", "run"], SYSTEMD_RUNNING]

def freshHost : Host where
  files
    | .file .passwdFile => freshAccounts.passwd
    | .file .groupFile => freshAccounts.group
    | .file .libvirtSock => some ⟨"", 0o666, none⟩
    | _ => none
  dirs := rootOnly.ensureAll 0o755 freshDirs

theorem freshLawful : LawfulFormats := by
  have hedited : ∀ {text edited}, tlsText text = .ok edited → edited = signedConfig := by
    intro text edited hedit
    obtain ⟨doc, _, rfl⟩ := except_map_eq_ok.mp hedit
    simp [Formats.render, Formats.set]
  have hsigned : Formats.file signedConfig =
      .ok ⟨some Config.DEFAULT_LISTEN, none, [], some selfSignedFiles.cert,
        some selfSignedFiles.key, false⟩ := by decide +kernel
  refine ⟨rfl, ?_, ?_⟩
  · intro text edited file hedit hfile
    rw [hedited hedit, hsigned]
    by_cases hplain : text = Dist.config
    · rw [hplain] at hfile
      cases hfile
      rfl
    · by_cases hboth : text = signedConfig
      · rw [hboth, hsigned] at hfile
        cases hfile
        rfl
      · simp only [Formats.file] at hfile
        rw [if_neg hplain, if_neg hboth] at hfile
        cases hfile
  · intro text edited hedit
    rw [hedited hedit]
    decide +kernel

theorem freshLawfulUsers : LawfulSysusers := by
  have hadded : addedAccounts ≠ freshAccounts := by decide +kernel
  have hgroups : lines "root:x:0:\nlibvirt:x:120:\n" =
      ["root:x:0:".toList, "libvirt:x:120:".toList] := by decide +kernel
  have hmore : lines "root:x:0:\nlibvirt:x:120:\nlodger:x:990:\n" =
      ["root:x:0:".toList, "libvirt:x:120:".toList, "lodger:x:990:".toList] := by decide +kernel
  constructor
  · intro accounts
    simp only [Sysusers.add]
    by_cases hfresh : accounts = freshAccounts
    · rw [if_pos hfresh, if_neg hadded]
    · rw [if_neg hfresh, if_neg hfresh]
  · intro accounts name hname
    simp only [Sysusers.add]
    by_cases hfresh : accounts = freshAccounts
    · rw [if_pos hfresh]
      rw [hfresh] at hname
      simp only [freshAccounts, addedAccounts, hasEntry, Option.map_some, Option.getD_some, hgroups,
        hmore, List.any_cons, List.any_nil, Bool.or_eq_true, Bool.or_false] at hname ⊢
      cases hname with
      | inl hroot => exact Or.inl hroot
      | inr hlibvirt => exact Or.inr (Or.inl hlibvirt)
    · rw [if_neg hfresh]
      exact hname

attribute [local instance] freshLawful freshLawfulUsers

def firstPair : SelfSigned :=
  ⟨"certificate 1", "key 1", "AA:01", "2027-10-09", by decide +kernel, by decide +kernel⟩

def secondPair : SelfSigned :=
  ⟨"certificate 2", "key 2", "BB:02", "2027-10-10", by decide +kernel, by decide +kernel⟩

-- The first run, in which one kind of call fails, and the run after it.
def failing (bad : Call → Bool) : Env where
  exe := "lodger"
  pair := firstPair
  umask := 0o077
  fault _ c :=
    if bad c then some ⟨"No space left on device (os error 28)", none, false⟩ else none

def nextTry : Env := { failing (fun _ => false) with pair := secondPair }

-- The service cannot be enabled.
theorem failed_install_runs_again_enable : ∃ done whole,
    (install (some "10.0.0.5") fun _ => false).run nextTry.calm.answer ⟨freshHost, none⟩ =
      (.ok done, ⟨whole, none⟩) ∧
    ∃ done', (install (some "10.0.0.5") fun _ => false).run nextTry.calm.answer
      ⟨((install (some "10.0.0.5") fun _ => false).run
        (failing (· = .run "systemctl" ["enable", SERVICE])).answer ⟨freshHost, none⟩).2.host,
        none⟩ = (.ok done', ⟨whole, none⟩) := by
  have hcheck : check freshHost (some "10.0.0.5") (fun _ => false) =
      .ok Config.DEFAULT_LISTEN := by decide +kernel
  have hfails : ∃ e, ((install (some "10.0.0.5") fun _ => false).run
      (failing (· = .run "systemctl" ["enable", SERVICE])).answer ⟨freshHost, none⟩).1 =
        .error e := ⟨.io "No space left on device (os error 28)", by decide +kernel⟩
  have hdone : ∃ done, ((install (some "10.0.0.5") fun _ => false).run nextTry.calm.answer
      ⟨freshHost, none⟩).1 = .ok done := ⟨⟨Config.DEFAULT_LISTEN, true,
        some ⟨"10.0.0.5", "BB:02", "2027-10-10"⟩⟩, by decide +kernel⟩
  have hcalm : ((install (some "10.0.0.5") fun _ => false).run nextTry.calm.answer
      ⟨freshHost, none⟩).2.failed = none := by decide +kernel
  have hfailed : ((install (some "10.0.0.5") fun _ => false).run
      (failing (· = .run "systemctl" ["enable", SERVICE])).answer ⟨freshHost, none⟩).2.failed =
        some (.run "systemctl" ["enable", SERVICE]) := by decide +kernel
  obtain ⟨e, hfails⟩ := hfails
  obtain ⟨done, hdone⟩ := hdone
  refine ⟨done, _, Prod.ext hdone (World.ext rfl hcalm), ?_⟩
  apply (failed_install_runs_again freshHost (some "10.0.0.5") (fun _ => false)
    (failing (· = .run "systemctl" ["enable", SERVICE])) nextTry hcheck
    (Prod.ext hfails rfl) (Prod.ext hdone (World.ext rfl hcalm))).mpr
  constructor
  · intro c hc hwrites
    rw [hfailed] at hc
    cases hc
    cases hwrites
  · intro d hd
    rw [hfailed] at hd
    cases hd

-- The file system is full when the key is in place.
theorem failed_install_after_key :
    check freshHost (some "10.0.0.5") (fun _ => false) = .ok Config.DEFAULT_LISTEN ∧
    ((install (some "10.0.0.5") fun _ => false).run (failing (· = .rename .tlsCert)).answer
      ⟨freshHost, none⟩).1 =
      .error (.cannotWrite Target.tlsCert.arg (.io "No space left on device (os error 28)")) ∧
    ((install (some "10.0.0.5") fun _ => false).run nextTry.calm.answer
      ⟨freshHost, none⟩).1.isOk ∧
    ((install (some "10.0.0.5") fun _ => false).run nextTry.calm.answer
      ⟨((install (some "10.0.0.5") fun _ => false).run (failing (· = .rename .tlsCert)).answer
        ⟨freshHost, none⟩).2.host, none⟩).1 = .error (.cannotInstall [.keyAlone]) := by
  refine ⟨by decide +kernel, by decide +kernel, by decide +kernel, by decide +kernel⟩

-- The mode of /etc/lodger cannot be set under umask 077. The next run finds the directory.
example :
    ((install none fun _ => false).run
      (failing (· = .setMode Target.configFile.dir 0o755)).answer ⟨freshHost, none⟩).1 =
      .error (.cannotCreate "/etc/lodger" (.io "No space left on device (os error 28)")) ∧
    ((install none fun _ => false).run nextTry.calm.answer ⟨((install none fun _ => false).run
      (failing (· = .setMode Target.configFile.dir 0o755)).answer ⟨freshHost, none⟩).2.host,
      none⟩).2.host.dirs.get Target.configFile.dir = some 0o700 := by
  decide +kernel

end FreshHost

end Lodger.Install
