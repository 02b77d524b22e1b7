import Lodger.Install.Begun

namespace Lodger.Install

open Lodger.Lib
open Config (Formats)

-- The file that the call is a step in writing. Only the first failure counts, so the removal of
-- the temporary file is not one.
def Call.writes : Call → Option Target
  | .writeNew t _ | .rename t => some t
  | _ => none

-- A failure of the call leaves nothing that another install cannot go on from.
def Call.recovers : Call → Prop
  | .writeNew t _ | .rename t => t ≠ .tlsCert
  | .setMode _ _ => False
  | _ => True

section Undone

variable [Tls] {env : Env} {s : Host} {d : Dir} {w : World}

-- What a failed `create_dirs` leaves. The parents that it has made stay, and a directory that it
-- has made may be without its mode.
inductive Undone (env : Env) (s : Host) (d : Dir) (w : World) : Prop where
  | missing (e : Dir) (suffix : e <:+ d) (no : s.dirs.get e = none)
      (left : w = ⟨s.makeDir e.tail, some (.createDir e)⟩)
  | noMode (e : Dir) (suffix : e <:+ d) (no : s.dirs.get e = none)
      (left : w = ⟨(s.makeDir e.tail).setDir e env.newDirMode, some (.setMode e 0o755)⟩)

theorem Undone.cons (h : Undone env s d w) (name : String) : Undone env s (name :: d) w := by
  cases h with
  | missing e suffix no left => exact .missing e (suffix.trans (List.suffix_cons ..)) no left
  | noMode e suffix no left => exact .noMode e (suffix.trans (List.suffix_cons ..)) no left

theorem Undone.not_isDir (h : Undone env s d w) : ¬s.isDir d := by
  intro hdir
  cases h with
  | missing e suffix no left => simpa [no] using DirTree.isSome_of_suffix suffix hdir
  | noMode e suffix no left => simpa [no] using DirTree.isSome_of_suffix suffix hdir

end Undone

theorem recovers_of_writes {c : Call} {t : Target} (hwrites : c.writes = some t)
    (ht : t ≠ .tlsCert) : c.recovers := by
  cases c with
  | writeNew t' file =>
      cases hwrites
      exact ht
  | rename t' =>
      cases hwrites
      exact ht
  | _ => cases hwrites

theorem writes_of_recovers {c : Call} (hrecovers : c.recovers) : c.writes ≠ some .tlsCert := by
  cases c with
  | writeNew t file => exact fun h => hrecovers (Option.some.inj h)
  | rename t => exact fun h => hrecovers (Option.some.inj h)
  | _ => simp [Call.writes]

section Calls

variable [Tls] [Sysusers] (env : Env)

abbrev Env.calls (env : Env) := Prog.permitted env.answer fun _ _ => True

theorem wp_call {s : Host} {c : Call} (hc : c ≠ .look) :
    (ask c).Wp env.calls (fun r w =>
      Outcome (fun a => (env.perform s c).1 = .ok a ∧ w = ⟨(env.perform s c).2, none⟩)
        (fun e => (∃ fault : Fault, e = .io fault.error ∧ w = ⟨fault.after s c, some c⟩) ∨
          (env.perform s c).1 = .error e ∧ w = ⟨(env.perform s c).2, none⟩) r) ⟨s, none⟩ := by
  rw [ask, Prog.wp_ask]
  intro r w hcall
  have hanswer := hcall.1
  unfold Env.answer at hanswer
  rw [if_neg hc] at hanswer
  cases hfault : env.fault ⟨s, none⟩ c with
  | none =>
      rw [hfault] at hanswer
      cases hanswer
      cases hperform : (env.perform s c).1 with
      | ok a => exact ⟨rfl, rfl⟩
      | error e => exact Or.inr ⟨rfl, rfl⟩
  | some fault =>
      rw [hfault] at hanswer
      cases hanswer
      exact Or.inl ⟨fault, rfl, rfl⟩

-- A call that goes through, unless it is made to fail.
theorem wp_call_ok {s s' : Host} {c : Call} {a : c.Result} (hc : c ≠ .look)
    (hperform : env.perform s c = (.ok a, s')) :
    (ask c).Wp env.calls (fun r w => Outcome (fun b => b = a ∧ w = ⟨s', none⟩)
      (fun e => ∃ fault : Fault, e = .io fault.error ∧ w = ⟨fault.after s c, some c⟩) r)
      ⟨s, none⟩ := by
  apply (wp_call env hc).imp
  intro r w hr
  rw [hperform] at hr
  cases r with
  | ok b => exact ⟨(Except.ok.inj hr.1).symm, hr.2⟩
  | error e =>
      cases hr with
      | inl hfault => exact hfault
      | inr hperformed => cases hperformed.1

theorem wp_look {β : Type} {f : Host → M β} {w : World} {post : Except InstallError β → World → Prop}
    (hf : (f w.host).Wp env.calls post w) : (ask .look >>= f).Wp env.calls post w := by
  rw [Prog.wp_bind, ask, Prog.wp_ask]
  intro r u hcall
  cases hcall.1
  exact hf

theorem wp_mapError {α : Type} {p : M α} {f : InstallError → InstallError} {w : World}
    {ok : α → World → Prop} {error : World → Prop}
    (h : p.Wp env.calls (fun r u => Outcome (fun a => ok a u) (fun _ => error u) r) w) :
    (mapError f p).Wp env.calls (fun r u => Outcome (fun a => ok a u) (fun _ => error u) r) w := by
  unfold mapError
  rw [Prog.wp_bind, Prog.wp_attempt]
  apply h.imp
  intro r u hr
  cases r with
  | ok a => exact hr
  | error e => exact hr

-- A temporary file goes or stays.
theorem answer_removeNew {s : Host} {t : Target} {x : Option File} {c : Call}
    {r : Except InstallError Unit} {w : World}
    (h : env.calls ⟨s.set (.new t) x, some c⟩ (.removeNew t) r w) :
    ∃ y, w = ⟨s.set (.new t) y, some c⟩ := by
  have hanswer := h.1
  unfold Env.answer at hanswer
  rw [if_neg (by simp)] at hanswer
  cases hfault : env.fault ⟨s.set (.new t) x, some c⟩ (.removeNew t) with
  | none =>
      rw [hfault] at hanswer
      cases hanswer
      exact ⟨none, by rw [← set_set s (.new t) x none]; rfl⟩
  | some fault =>
      rw [hfault] at hanswer
      cases hanswer
      exact ⟨x, rfl⟩

theorem wp_createDirs (s : Host) (d : Dir) : (createDirs d).Wp env.calls (fun r w =>
    Outcome (fun _ => w = ⟨s.makeDir d, none⟩) (fun _ => Undone env s d w) r) ⟨s, none⟩ := by
  induction d with
  | nil => exact rfl
  | cons name parent ih =>
      unfold createDirs
      apply wp_look
      by_cases hdir : s.isDir (name :: parent)
      · rw [if_pos hdir]
        exact congrArg (World.mk · none) (makeDir_of_isDir s _ hdir).symm
      · have hno : s.dirs.get (name :: parent) = none := Option.not_isSome_iff_eq_none.mp hdir
        rw [if_neg hdir, Prog.wp_bind]
        apply ih.imp
        intro r u hmade
        cases r with
        | error e => exact hmade.cons name
        | ok a =>
            obtain rfl : u = _ := hmade
            rw [outcome_ok, Prog.wp_bind, Prog.wp_attempt]
            apply (wp_call_ok env (by simp) (perform_createDir env s hdir)).imp
            intro r u hr
            cases r with
            | error e =>
                obtain ⟨fault, rfl, rfl⟩ := hr
                exact .missing _ List.suffix_rfl hno rfl
            | ok a =>
                obtain ⟨_, rfl⟩ := hr
                apply (wp_call_ok env (by simp) (perform_setMode env s hdir _)).imp
                intro r u hr
                cases r with
                | error e =>
                    obtain ⟨fault, _, rfl⟩ := hr
                    exact .noMode _ List.suffix_rfl hno rfl
                | ok a => exact hr.2

-- How a write ends.
def Wrote (s : Host) (t : Target) (file : File) (r : Except InstallError Unit) (w : World) : Prop :=
  Outcome (fun _ => w = ⟨s.put t file, none⟩)
    (fun _ => Undone env s t.dir w ∨
      ∃ c x, c.writes = some t ∧ w = ⟨(s.makeDir t.dir).set (.new t) x, some c⟩) r

theorem wp_writeNew_rename (s : Host) (t : Target) (file : File) :
    (do
      ask (.writeNew t file)
      ask (.rename t) : M Unit).Wp env.calls (fun r w =>
        Outcome (fun _ => w = ⟨s.put t file, none⟩) (fun _ => ∃ c x, c.writes = some t ∧
          w = ⟨(s.makeDir t.dir).set (.new t) x, some c⟩) r) ⟨s.makeDir t.dir, none⟩ := by
  have hrename : env.perform ((s.makeDir t.dir).set (.new t) (some file)) (.rename t) =
      (.ok (), s.put t file) := Prod.ext rfl (perform_rename env s t file)
  rw [Prog.wp_bind]
  apply (wp_call_ok env (by simp) (perform_writeNew env s t file)).imp
  intro r w hr
  cases r with
  | error e =>
      obtain ⟨fault, _, rfl⟩ := hr
      exact ⟨.writeNew t file, fault.rest, rfl, rfl⟩
  | ok a =>
      obtain ⟨_, rfl⟩ := hr
      apply (wp_call_ok env (by simp) hrename).imp
      intro r w hr
      cases r with
      | error e =>
          obtain ⟨fault, _, rfl⟩ := hr
          exact ⟨.rename t, some file, rfl, rfl⟩
      | ok a => exact hr.2

theorem wp_writeAs (s : Host) (t : Target) (bytes : String) (mode : Nat)
    (owner : Option (Nat × Nat)) :
    (writeAs t bytes mode owner).Wp env.calls (Wrote env s t ⟨bytes, mode, owner⟩) ⟨s, none⟩ := by
  unfold writeAs
  rw [Prog.wp_bind]
  apply (wp_mapError env (wp_createDirs env s t.dir)).imp
  intro r w hr
  cases r with
  | error e => exact Or.inl hr
  | ok a =>
      rw [outcome_ok] at hr ⊢
      rw [hr, Prog.wp_bind, Prog.wp_attempt]
      apply (wp_writeNew_rename env s t _).imp
      intro r w hr
      cases r with
      | ok a => exact hr
      | error e =>
          obtain ⟨c, x, hc, rfl⟩ := hr
          show Prog.Wp _ _ _ _
          rw [Prog.wp_bind, Prog.wp_attempt]
          intro r w hcall
          obtain ⟨y, rfl⟩ := answer_removeNew env hcall
          exact Or.inr ⟨c, y, hc, rfl⟩

end Calls

-- What an install that stops leaves.
section Stops

theorem userIds_empty (name : String) : userIds "" name = none := by
  simp [userIds, lines]

section Pair

variable [Tls] {selfSigned : Option String} {h t : Host}

theorem foreignPair_congr (hcert : t.files (.file .tlsCert) = h.files (.file .tlsCert))
    (hkey : t.files (.file .tlsKey) = h.files (.file .tlsKey)) : foreignPair t = foreignPair h := by
  unfold foreignPair Host.read Host.has
  rw [hcert, hkey]

theorem foreignPair_eq_none_iff : foreignPair h = none ↔
    (h.has .tlsCert = false → h.has .tlsKey = false) ∧
      ∀ cert, h.files (.file .tlsCert) = some cert → Tls.madeByLodger cert.bytes ∧
        ∀ key, h.files (.file .tlsKey) = some key → Tls.serverConfig cert.bytes key.bytes := by
  unfold foreignPair Host.read Host.has
  cases h.files (.file .tlsCert) with
  | none => simp
  | some cert =>
      cases hmade : Tls.madeByLodger cert.bytes with
      | false => simp [hmade]
      | true =>
          cases h.files (.file .tlsKey) with
          | none => simp [hmade]
          | some key => simp [hmade]

-- The check of a host where only the key is new.
theorem foreignPair_new_key {key : File} (hold : foreignPair h = none)
    (hcert : t.files (.file .tlsCert) = h.files (.file .tlsCert))
    (hkey : t.files (.file .tlsKey) = some key) : foreignPair t = none ↔
      ∃ cert, h.files (.file .tlsCert) = some cert ∧ Tls.serverConfig cert.bytes key.bytes := by
  rw [foreignPair_eq_none_iff] at hold ⊢
  cases hthere : h.files (.file .tlsCert) with
  | none =>
      rw [hthere] at hcert
      simp [Host.has, hcert, hkey]
  | some cert =>
      have hmade := (hold.2 cert hthere).1
      rw [hthere] at hcert
      simp [Host.has, hcert, hkey, hmade]

-- The files of the pair let a `--self-signed` install through.
def Fits (selfSigned : Option String) (cert key : Option File) : Prop :=
  selfSigned.isSome → ∀ host : Host, host.files (.file .tlsCert) = cert →
    host.files (.file .tlsKey) = key → foreignPair host = none

theorem fits_pair (pair : SelfSigned) {file : File} (hfile : file.bytes = pair.keyPem) :
    Fits selfSigned (some ⟨pair.certPem, 0o644, none⟩) (some file) := by
  intro _ host hcert hkey
  unfold foreignPair Host.read
  rw [hcert, hkey]
  simp [pair.made, pair.pair, hfile]

end Pair

variable [Dist] [Tls] [Sysusers] [Formats] (env : Env) (selfSigned : Option String) (h : Host)

structure Going (cert key : Option File) (w : World) : Prop where
  begun : Begun selfSigned h w.host
  cert : w.host.files (.file .tlsCert) = cert
  key : w.host.files (.file .tlsKey) = key
  failed : w.failed = none

inductive Stopped (w : World) : Prop where
  | fits (begun : Begun selfSigned h w.host) (pair : selfSigned.isSome → foreignPair w.host = none)
      (failed : ∀ c, w.failed = some c → c.recovers)
  -- The new key is in place, and the certificate is not.
  | keyOnly (begun : Begun selfSigned h w.host) (signed : selfSigned.isSome)
      (cert : w.host.files (.file .tlsCert) = h.files (.file .tlsCert))
      (key : ∃ file, w.host.files (.file .tlsKey) = some file ∧ file.bytes = env.pair.keyPem)
      (failed : ∃ c, w.failed = some c ∧ c.writes = some .tlsCert)
  -- A new directory has the mode that the umask leaves.
  | noMode (d : Dir) (need : ∃ e ∈ needed selfSigned h, d <:+ e) (missing : h.dirs.get d = none)
      (mode : w.host.dirs.get d = some env.newDirMode)
      (begun : Begun selfSigned h (w.host.setDir d 0o755))
      (pair : selfSigned.isSome → foreignPair w.host = none)
      (failed : w.failed = some (.setMode d 0o755))

-- A part of an install that ends in `ok`, or stops the install.
abbrev Stage {α : Type} (p : M α) (w : World) (ok : α → World → Prop) : Prop :=
  p.Wp env.calls (fun r u => Outcome (fun a => ok a u) (fun _ => Stopped env selfSigned h u) r) w

variable {env selfSigned h} {α β : Type} {p : M α} {f : α → M β} {w : World}
  {cert key : Option File}

theorem Going.stopped (hgoing : Going selfSigned h cert key w) (hfits : Fits selfSigned cert key)
    {u : World} (hbegun : Begun selfSigned h u.host)
    (hcert : u.host.files (.file .tlsCert) = w.host.files (.file .tlsCert))
    (hkey : u.host.files (.file .tlsKey) = w.host.files (.file .tlsKey))
    (hfailed : ∀ c, u.failed = some c → c.recovers) : Stopped env selfSigned h u :=
  .fits hbegun
    (fun hsigned => hfits hsigned u.host (hcert.trans hgoing.cert) (hkey.trans hgoing.key)) hfailed

theorem Stage.bind {ok : α → World → Prop} {ok' : β → World → Prop}
    (hp : Stage env selfSigned h p w ok)
    (hf : ∀ a u, ok a u → Stage env selfSigned h (f a) u ok') :
    Stage env selfSigned h (p >>= f) w ok' := by
  rw [Stage, Prog.wp_bind]
  apply hp.imp
  intro r u hr
  cases r with
  | ok a => exact hf a u hr
  | error e => exact hr

theorem Going.undone (hgoing : Going selfSigned h cert key w) (hfits : Fits selfSigned cert key)
    {d : Dir} (hd : d ∈ needed selfSigned h) {u : World} (hundone : Undone env w.host d u) :
    Stopped env selfSigned h u := by
  cases hundone with
  | missing e suffix no left =>
      rw [left]
      refine hgoing.stopped hfits (hgoing.begun.makeDir hd (e.tail_suffix.trans suffix)) rfl rfl ?_
      intro c hc
      cases hc
      trivial
  | noMode e suffix no left =>
      have hparent := isDir_makeDir w.host e.tail
      have hmissing : h.dirs.get e = none := by
        cases hgoing.begun.dirs e with
        | inl hsame => rw [← hsame, no]
        | inr hnew => exact hnew.2.1
      rw [left]
      refine .noMode e ⟨d, hd, suffix⟩ hmissing ?_ ?_ ?_ rfl
      · exact (DirTree.get_put hparent).trans (if_pos rfl)
      · rw [setDir_setDir _ e hparent, setDir_makeDir _ e no]
        exact hgoing.begun.makeDir hd suffix
      · exact fun hsigned => hfits hsigned _ hgoing.cert hgoing.key

-- A write that is not part of the pair.
theorem Going.writeAs (hgoing : Going selfSigned h cert key w) (hfits : Fits selfSigned cert key)
    {t : Target} (htcert : t ≠ .tlsCert) (htkey : t ≠ .tlsKey) (hdir : t.dir ∈ needed selfSigned h)
    {bytes : String} {mode : Nat} {owner : Option (Nat × Nat)}
    (hput : Begun selfSigned h (w.host.put t ⟨bytes, mode, owner⟩))
    (hnew : ∀ x, Begun selfSigned h ((w.host.makeDir t.dir).set (.new t) x)) :
    Stage env selfSigned h (Install.writeAs t bytes mode owner) w fun _ u =>
      Going selfSigned h cert key u := by
  obtain ⟨s, failed⟩ := w
  obtain rfl : failed = none := hgoing.failed
  apply (wp_writeAs env s t bytes mode owner).imp
  intro r u hr
  cases r with
  | ok a =>
      obtain rfl : u = _ := hr
      refine ⟨hput, ?_, ?_, rfl⟩
      · rw [← hgoing.cert]
        simp [files_put, Ne.symm htcert]
      · rw [← hgoing.key]
        simp [files_put, Ne.symm htkey]
  | error e =>
      cases hr with
      | inl hundone => exact hgoing.undone hfits hdir hundone
      | inr hleft =>
          obtain ⟨c, x, hc, rfl⟩ := hleft
          refine hgoing.stopped hfits (hnew x) (by simp) (by simp) ?_
          intro c' hc'
          cases hc'
          exact recovers_of_writes hc htcert

-- A call that only reads.
theorem Going.ask (hgoing : Going selfSigned h cert key w) (hfits : Fits selfSigned cert key)
    {c : Call} (hc : c ≠ .look) (hrecovers : c.recovers)
    (hperform : (env.perform w.host c).2 = w.host)
    (hafter : ∀ fault : Fault, fault.after w.host c = w.host) (g : InstallError → InstallError) :
    Stage env selfSigned h (mapError g (Install.ask c)) w fun a u =>
      (env.perform w.host c).1 = .ok a ∧ u = w := by
  obtain ⟨s, failed⟩ := w
  obtain rfl : failed = none := hgoing.failed
  apply wp_mapError
  apply (wp_call env hc).imp
  intro r u hr
  cases r with
  | ok a => exact ⟨hr.1, by rw [hr.2, hperform]⟩
  | error e =>
      have hhost : u.host = s := by
        cases hr with
        | inl hfault =>
            obtain ⟨fault, _, rfl⟩ := hfault
            exact hafter fault
        | inr hperformed => rw [hperformed.2, hperform]
      refine hgoing.stopped hfits ?_ (by rw [hhost]) (by rw [hhost]) ?_
      · rw [hhost]
        exact hgoing.begun
      · intro c' hc'
        cases hr with
        | inl hfault =>
            obtain ⟨fault, _, rfl⟩ := hfault
            cases hc'
            exact hrecovers
        | inr hperformed =>
            rw [hperformed.2] at hc'
            cases hc'

theorem Going.run (hgoing : Going selfSigned h cert key w) (hfits : Fits selfSigned cert key)
    {program : String} {args : List String} (hrun : Begun selfSigned h (runOn w.host program)) :
    Stage env selfSigned h (runCommand program args) w fun _ u =>
      Going selfSigned h cert key u := by
  have hcert : (runOn w.host program).files (.file .tlsCert) = w.host.files (.file .tlsCert) := by
    unfold runOn
    split
    · simp [Host.addUser]
    · rfl
  have hkey : (runOn w.host program).files (.file .tlsKey) = w.host.files (.file .tlsKey) := by
    unfold runOn
    split
    · simp [Host.addUser]
    · rfl
  obtain ⟨s, failed⟩ := w
  obtain rfl : failed = none := hgoing.failed
  have hrun' : env.perform s (.run program args) = (.ok (), runOn s program) := rfl
  apply (wp_call_ok env (by simp) hrun').imp
  intro r u hr
  cases r with
  | ok a =>
      obtain ⟨_, rfl⟩ := hr
      exact ⟨hrun, hcert.trans hgoing.cert, hkey.trans hgoing.key, rfl⟩
  | error e =>
      obtain ⟨fault, _, rfl⟩ := hr
      have hnone : ∀ c, some (Call.run program args) = some c → c.recovers := by
        intro c hc
        cases hc
        trivial
      by_cases hdid : fault.did
      · refine hgoing.stopped hfits ?_ ?_ ?_ hnone
        · simpa [Fault.after, hdid] using hrun
        · simpa [Fault.after, hdid] using hcert
        · simpa [Fault.after, hdid] using hkey
      · refine hgoing.stopped hfits ?_ ?_ ?_ hnone
        · simpa [Fault.after, hdid] using hgoing.begun
        · simp [Fault.after, hdid]
        · simp [Fault.after, hdid]

theorem Going.stay (hgoing : Going selfSigned h cert key w) (hfits : Fits selfSigned cert key) :
    Stopped env selfSigned h w := by
  refine hgoing.stopped hfits hgoing.begun rfl rfl ?_
  intro c hc
  rw [hgoing.failed] at hc
  cases hc

theorem Going.copyBinary (hgoing : Going selfSigned h cert key w)
    (hfits : Fits selfSigned cert key) :
    Stage env selfSigned h copyBinary w fun _ u => Going selfSigned h cert key u := by
  refine (hgoing.ask (c := .readExe) hfits (by simp) trivial rfl (fun _ => rfl) _).bind ?_
  intro bytes u hu
  obtain ⟨_, rfl⟩ := hu
  have hdir : Target.bin.dir ∈ needed selfSigned h := by simp [needed, written]
  exact hgoing.writeAs hfits (by simp) (by simp) hdir (hgoing.begun.put hdir rfl rfl _)
    fun x => (hgoing.begun.makeDir hdir List.suffix_rfl).set rfl (by simp) x

theorem Going.writeSysusers (hgoing : Going selfSigned h cert key w)
    (hfits : Fits selfSigned cert key) :
    Stage env selfSigned h (write .sysusersFile Dist.sysusers 0o644) w fun _ u =>
      Going selfSigned h cert key u := by
  have hdir : Target.sysusersFile.dir ∈ needed selfSigned h := by simp [needed, written]
  exact hgoing.writeAs hfits (by simp) (by simp) hdir (hgoing.begun.put hdir rfl rfl _)
    fun x => (hgoing.begun.makeDir hdir List.suffix_rfl).set rfl (by simp) x

theorem Going.writeUnit (hgoing : Going selfSigned h cert key w)
    (hfits : Fits selfSigned cert key) :
    Stage env selfSigned h (write .unitFile Dist.unit 0o644) w fun _ u =>
      Going selfSigned h cert key u := by
  have hdir : Target.unitFile.dir ∈ needed selfSigned h := by simp [needed, written]
  exact hgoing.writeAs hfits (by simp) (by simp) hdir (hgoing.begun.put_unit _)
    fun x => (hgoing.begun.makeDir hdir List.suffix_rfl).set rfl (by simp) x

theorem Going.writeTemplate (hgoing : Going selfSigned h cert key w)
    (hfits : Fits selfSigned cert key) :
    Stage env selfSigned h writeTemplate w fun _ u => Going selfSigned h cert key u := by
  apply wp_look
  by_cases hhas : w.host.has .configFile
  · rw [if_pos hhas]
    exact hgoing
  · rw [if_neg hhas]
    have hno : w.host.files (.file .configFile) = none := by
      simpa [Host.has] using hhas
    have hdir := hgoing.begun.config_dir (Or.inr hno)
    exact hgoing.writeAs hfits (by simp) (by simp) hdir (hgoing.begun.put_template hno)
      fun x => (hgoing.begun.makeDir hdir List.suffix_rfl).set_newConfig (Or.inr hno) x

theorem Going.startService (hgoing : Going selfSigned h cert key w)
    (hfits : Fits selfSigned cert key) :
    Stage env selfSigned h startService w fun _ u => Going selfSigned h cert key u := by
  have hsystemctl : ∀ {v : World} (args : List String), Going selfSigned h cert key v →
      Stage env selfSigned h (runCommand "systemctl" args) v fun _ u =>
        Going selfSigned h cert key u := fun _ hv => hv.run hfits hv.begun
  exact (hsystemctl _ hgoing).bind fun _ _ hreloaded =>
    (hsystemctl _ hreloaded).bind fun _ _ henabled => hsystemctl _ henabled

theorem Going.loadTls (hgoing : Going selfSigned h cert key w) (hfits : Fits selfSigned cert key) :
    Stage env selfSigned h loadTls w fun _ _ => True := by
  have hread := perform_read_host env w.host .configFile
  refine (hgoing.ask (c := .read .configFile) hfits (by simp) trivial hread (fun _ => rfl) _).bind ?_
  intro text u hu
  obtain ⟨_, rfl⟩ := hu
  cases Config.load text with
  | ok config => trivial
  | error e => exact hgoing.stay hfits

theorem Going.users (hgoing : Going selfSigned h cert key w) :
    (Prog.attempt (Install.ask (.read .passwdFile)) : M _).Wp env.calls (fun r u =>
      Outcome (fun users => u = w ∨ users.toOption.getD "" = "" ∧
        u = ⟨w.host, some (.read .passwdFile)⟩) (fun _ => False) r) w := by
  obtain ⟨s, failed⟩ := w
  obtain rfl : failed = none := hgoing.failed
  rw [Prog.wp_attempt]
  apply (wp_call env (by simp)).imp
  intro r u hr
  cases r with
  | ok text => exact Or.inl (hr.2.trans (by rw [perform_read_host]))
  | error e =>
      cases hr with
      | inl hfault =>
          obtain ⟨fault, _, rfl⟩ := hfault
          exact Or.inr ⟨rfl, rfl⟩
      | inr hperformed => exact Or.inl (hperformed.2.trans (by rw [perform_read_host]))

theorem Going.writeKey (hgoing : Going selfSigned h cert key w) (hfits : Fits selfSigned cert key)
    (hsigned : selfSigned.isSome) (owner : Nat × Nat) :
    Stage env selfSigned h (Install.writeAs .tlsKey env.pair.keyPem 0o600 (some owner)) w
      fun _ u => Going selfSigned h cert (some ⟨env.pair.keyPem, 0o600, some owner⟩) u ∧
        u.host.isDir Target.tlsCert.dir := by
  have hdir : Target.tlsKey.dir ∈ needed selfSigned h := by simp [needed, written, hsigned]
  obtain ⟨s, failed⟩ := w
  obtain rfl : failed = none := hgoing.failed
  apply (wp_writeAs env s .tlsKey _ _ _).imp
  intro r u hr
  cases r with
  | ok a =>
      obtain rfl : u = _ := hr
      refine ⟨⟨hgoing.begun.put (u := .tlsKey) hdir hsigned hsigned _, ?_, by simp [files_put],
        rfl⟩, isDir_makeDir s Target.tlsKey.dir⟩
      rw [← hgoing.cert]
      simp [files_put]
  | error e =>
      cases hr with
      | inl hundone => exact hgoing.undone hfits hdir hundone
      | inr hleft =>
          obtain ⟨c, x, hc, rfl⟩ := hleft
          have hmade := hgoing.begun.makeDir hdir List.suffix_rfl
          have hbegun := hmade.set (p := .new .tlsKey) hsigned (by simp) x
          refine hgoing.stopped hfits hbegun (by simp) (by simp) ?_
          intro c' hc'
          cases hc'
          exact recovers_of_writes hc (by simp)

-- The directory is there, since the key is.
theorem Going.writeCert {file : File}
    (hgoing : Going selfSigned h (h.files (.file .tlsCert)) (some file) w)
    (hdir : w.host.isDir Target.tlsCert.dir) (hfile : file.bytes = env.pair.keyPem)
    (hsigned : selfSigned.isSome) :
    Stage env selfSigned h (write .tlsCert env.pair.certPem 0o644) w
      fun _ u => Going selfSigned h (some ⟨env.pair.certPem, 0o644, none⟩) (some file) u := by
  have hneed : Target.tlsCert.dir ∈ needed selfSigned h := by simp [needed, written, hsigned]
  obtain ⟨s, failed⟩ := w
  obtain rfl : failed = none := hgoing.failed
  apply (wp_writeAs env s .tlsCert _ _ _).imp
  intro r u hr
  cases r with
  | ok a =>
      obtain rfl : u = _ := hr
      refine ⟨hgoing.begun.put (u := .tlsCert) hneed hsigned hsigned _, by simp [files_put], ?_,
        rfl⟩
      rw [← hgoing.key]
      simp [files_put]
  | error e =>
      cases hr with
      | inl hundone => exact absurd hdir hundone.not_isDir
      | inr hleft =>
          obtain ⟨c, x, hc, rfl⟩ := hleft
          have hmade := hgoing.begun.makeDir hneed List.suffix_rfl
          have hbegun := hmade.set (p := .new .tlsCert) hsigned (by simp) x
          refine .keyOnly hbegun hsigned ?_ ⟨file, ?_, hfile⟩ ⟨c, rfl, hc⟩
          · rw [files_set_ne _ _ _ _ (by simp)]
            exact hgoing.cert
          · rw [files_set_ne _ _ _ _ (by simp)]
            exact hgoing.key

theorem Going.setTlsPaths [LawfulFormats] (hgoing : Going selfSigned h cert key w)
    (hfits : Fits selfSigned cert key) (hsigned : selfSigned.isSome) :
    Stage env selfSigned h setTlsPaths w fun _ u => Going selfSigned h cert key u := by
  have hread := perform_read_host env w.host .configFile
  refine (hgoing.ask (c := .read .configFile) hfits (by simp) trivial hread (fun _ => rfl) _).bind ?_
  intro text u hu
  obtain ⟨htext, rfl⟩ := hu
  obtain ⟨file, hfile, rfl⟩ := Option.map_eq_some_iff.mp ((perform_read_ok env _).mp htext)
  cases hdoc : Formats.document file.bytes with
  | error e => exact hgoing.stay hfits
  | ok doc =>
      have hedit : tlsText file.bytes = .ok (Formats.render (Formats.set
          (Formats.set doc "tls_cert" selfSignedFiles.cert) "tls_key" selfSignedFiles.key)) := by
        unfold tlsText
        rw [hdoc]
        rfl
      have hdir := hgoing.begun.config_dir (Or.inl hsigned)
      exact hgoing.writeAs hfits (by simp) (by simp) hdir
        (hgoing.begun.put_edited hsigned hfile hedit)
        fun x => (hgoing.begun.makeDir hdir List.suffix_rfl).set_newConfig (Or.inl hsigned) x

variable [LawfulFormats]

theorem Going.writeSelfSigned (hgoing : Going selfSigned h (h.files (.file .tlsCert)) key w)
    (hfits : Fits selfSigned (h.files (.file .tlsCert)) key) (hsigned : selfSigned.isSome)
    (name : String) :
    Stage env selfSigned h (writeSelfSigned name) w fun _ u =>
      ∃ cert key, Fits selfSigned cert key ∧ Going selfSigned h cert key u := by
  refine (hgoing.ask (c := .selfSigned name) hfits (by simp) trivial rfl (fun _ => rfl) _).bind ?_
  intro pair u hpair
  obtain ⟨hpair, rfl⟩ := hpair
  obtain rfl : pair = env.pair := (Except.ok.inj hpair).symm
  rw [Stage, Prog.wp_bind]
  apply hgoing.users.imp
  intro r u hr
  cases r with
  | error e => cases hr
  | ok users =>
      cases hr with
      | inr hunread =>
          obtain ⟨hempty, rfl⟩ := hunread
          rw [outcome_ok, hempty, userIds_empty]
          refine hgoing.stopped hfits hgoing.begun rfl rfl ?_
          intro c hc
          cases hc
          trivial
      | inl hread =>
          subst hread
          rw [outcome_ok]
          cases userIds (users.toOption.getD "") "lodger" with
          | none => exact hgoing.stay hfits
          | some owner =>
              refine (hgoing.writeKey hfits hsigned owner).bind fun _ _ hkey => ?_
              refine (hkey.1.writeCert hkey.2 rfl hsigned).bind fun _ _ hcert => ?_
              have hmade : Fits selfSigned (some ⟨env.pair.certPem, 0o644, none⟩)
                (some ⟨env.pair.keyPem, 0o600, some owner⟩) := fits_pair env.pair rfl
              refine (hcert.setTlsPaths hmade hsigned).bind fun _ _ hdone => ?_
              exact ⟨_, _, hmade, hdone⟩

theorem Going.makeCertificate (hgoing : Going selfSigned h (h.files (.file .tlsCert)) key w)
    (hfits : Fits selfSigned (h.files (.file .tlsCert)) key) :
    Stage env selfSigned h (makeCertificate selfSigned) w fun _ u =>
      ∃ cert key, Fits selfSigned cert key ∧ Going selfSigned h cert key u := by
  cases selfSigned with
  | none => exact ⟨_, _, hfits, hgoing⟩
  | some name => exact (hgoing.writeSelfSigned hfits rfl name).bind fun _ _ hdone => hdone

theorem stage_apply [LawfulSysusers]
    (hfits : Fits selfSigned (h.files (.file .tlsCert)) (h.files (.file .tlsKey)))
    (listen : SocketAddr) :
    Stage env selfSigned h (apply selfSigned listen) ⟨h, none⟩ fun _ _ => True := by
  have hstart : Going selfSigned h (h.files (.file .tlsCert)) (h.files (.file .tlsKey))
      ⟨h, none⟩ := ⟨.refl, rfl, rfl, rfl⟩
  refine (hstart.copyBinary hfits).bind fun _ _ hcopied => ?_
  refine (hcopied.writeSysusers hfits).bind fun _ _ hentry => ?_
  refine (hentry.run hfits (show Begun selfSigned h (runOn _ "systemd-sysusers") from
    hentry.begun.addUser)).bind fun _ _ hadded => ?_
  refine (hadded.writeTemplate hfits).bind fun _ _ hconfig => ?_
  refine (hconfig.makeCertificate hfits).bind fun _ _ hmade => ?_
  obtain ⟨cert, key, hpair, hcertificate⟩ := hmade
  refine (hcertificate.writeUnit hpair).bind fun _ _ hunit => ?_
  refine (hunit.startService hpair).bind fun _ _ hstarted => ?_
  exact (hstarted.loadTls hpair).bind fun _ _ _ => trivial

end Stops

end Lodger.Install
