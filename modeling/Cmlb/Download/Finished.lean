import Cmlb.Application.RunInv
import Cmlb.Download.Aria2

/-!
# Uploads of an aria2 download

A `Session` is a run whose downloader is aria2: every poll is answered by a `tellStatus` call, and
the session keeps the payloads the run has seen. The poll loop takes every path of
`DownloadStatus.files` for a finished file, and `to_status` puts every entry there that has a path,
so an upload can start on a file aria2 is still writing. `Run.Within` bounds what a run can upload by
what was listed to it.
-/

namespace Cmlb

/-- The listed paths the spawn loop has in hand. -/
def Pc.inHand : Pc → List Path
  | .spawnNext files => files
  | .checkQueued file rest | .spawning file rest
  | .saving (.beginUpload file rest) | .saved (.beginUpload file rest) => file :: rest
  | _ => []

/-- The program points from which the fallback can still upload `final_status`. -/
def Pc.mayFallBack : Pc → Bool
  | .start | .gettingSettings | .sendingStatus | .creating | .created
  | .saving .startDownload | .saved .startDownload | .addingUri
  | .saving .attachDownloader | .saved .attachDownloader
  | .loopHead | .polling | .spawnNext _ | .checkQueued _ _ | .spawning _ _
  | .saving (.beginUpload _ _) | .saved (.beginUpload _ _)
  | .rendering | .checking | .waiting | .afterLoop
  | .saving .beginUploadFallback | .saved .beginUploadFallback | .editing .uploading => true
  | _ => false

namespace Run

variable {S : Setup} {r r' : Run} {e : Event} {pc pc' : Pc} {F G : Path → Prop}

/-- All that the run has uploaded, or may upload of what was listed to it so far, is in `F`. -/
structure Within (F : Path → Prop) (r : Run) : Prop where
  inHand : ∀ f ∈ r.pc.inHand, F f
  listed : r.pc.mayFallBack = true → ∀ f ∈ r.finalStatus.files, F f
  queued : ∀ f ∈ r.pipe.queued, F f
  called : ∀ f, .uploadFile f ∈ r.calls → F f

theorem within_init (S : Setup) : S.init.Within F where
  inHand f hf := by cases hf
  listed _ f hf := by cases hf
  queued f hf := by cases hf
  called f hf := by cases hf

theorem Within.mono (h : r.Within F) (hFG : ∀ f, F f → G f) : r.Within G where
  inHand f hf := hFG f (h.inHand f hf)
  listed hpc f hf := hFG f (h.listed hpc f hf)
  queued f hf := hFG f (h.queued f hf)
  called f hf := hFG f (h.called f hf)

/-- Only a poll brings new paths. -/
theorem Flow.inHand (hf : Flow pc e pc') (hne : e.isPoll = false) : ∀ f ∈ pc'.inHand, f ∈ pc.inHand := by
  intro f hmem
  cases hf with
  | commit k x => cases k <;> exact hmem
  | pollSpawn st => cases hne
  | known file rest => exact List.mem_cons_of_mem _ hmem
  | spawned file rest => exact List.mem_cons_of_mem _ hmem
  | _ => first | exact hmem | cases hmem

theorem Flow.mayFallBack (hf : Flow pc e pc') (hne : e.isPoll = false) (h : pc'.mayFallBack = true) :
    pc.mayFallBack = true := by
  cases hf with
  | commit k x => cases k <;> first | rfl | cases h
  | _ => first | rfl | cases h

theorem Within.queued_step (h : r.Within F) (hs : Step S r e r') : ∀ f ∈ r'.pipe.queued, F f := by
  have hpipe := hs.pipe
  generalize r'.pipe = p at hpipe
  have moved : ∀ {p}, PipelineState.Move r.pipe p → ∀ f ∈ p.queued, F f := by
    intro p hm f hf
    rw [hm.queued_eq] at hf
    exact h.queued f hf
  cases hpipe with
  | same _ => exact h.queued
  | @spawn file rest hpc =>
    intro f hf
    unfold PipelineState.spawnUpload at hf
    split at hf
    · exact h.queued f hf
    · rcases Finset.mem_insert.1 hf with rfl | hf
      · exact h.inHand _ (by rw [hpc]; exact List.mem_cons_self)
      · exact h.queued f hf
  | started hp => exact moved (.started _ hp)
  | returned hp => exact moved (.returned _ _ hp)
  | threw hp => exact moved (.threw _ hp)

/-- `upload_file` is called by a spawned coroutine or by the fallback. -/
theorem Within.called_step (h : r.Within F) (hi : r.Inv S) (hs : Step S r e r') :
    ∀ f, .uploadFile f ∈ r'.calls → F f := by
  intro f hf
  rcases hs.calls with hc | ⟨c, hc, hl⟩
  · exact h.called f (hc ▸ hf)
  · rw [hc] at hf
    rcases List.mem_cons.1 hf with heq | hf
    · cases hl with
      | uploadFile hu =>
        cases heq
        exact h.queued _ (hi.pipe.mem_queued (List.mem_of_getElem? hu))
      | fallbackFile hpc hhead =>
        cases heq
        exact h.listed (by rw [hpc]; rfl) f (List.mem_of_head? hhead)
      | _ => cases heq
    · exact h.called f hf

/-- A poll lists what is in hand next, unless it fails the run. -/
theorem within_onStatus (h : r.Within F) (x : Result DownloadStatus)
    (hx : ∀ st, x = .ok st → st.state = .error ∨ st.state = .removed ∨ ∀ f ∈ st.files, F f) :
    (r.onStatus S x).Within F := by
  have failing : ∀ st k, Within F { r with finalStatus := st, pc := .draining k } := by
    intro st k
    exact ⟨fun f hf => absurd hf List.not_mem_nil, nofun, h.queued, h.called⟩
  rcases onStatus_cases S x r with ⟨st, err, heq⟩ | ⟨st, hst, herr, hrem, heq⟩
  · rw [heq]
    exact failing st _
  · have hfiles : ∀ f ∈ st.files, F f := ((hx st hst).resolve_left herr).resolve_left hrem
    rw [heq]
    by_cases hp : S.supportsPipelining = true
    · simp only [if_pos hp]
      exact ⟨hfiles, fun _ => hfiles, h.queued, h.called⟩
    · simp only [if_neg hp]
      exact ⟨fun f hf => absurd hf List.not_mem_nil, fun _ => hfiles, h.queued, h.called⟩

/-- Steps stay within `F` as long as the polls that do not fail the run list nothing else. -/
theorem Within.step (h : r.Within F) (hi : r.Inv S) (hs : Step S r e r')
    (hx : ∀ st, e = .status (.ok st) →
      st.state = .error ∨ st.state = .removed ∨ ∀ f ∈ st.files, F f) : r'.Within F := by
  cases hpoll : e.isPoll with
  | true =>
    cases hs with
    | status hpc x => exact within_onStatus h x fun st hst => hx st (by rw [hst])
    | _ => cases hpoll
  | false =>
    refine ⟨?_, fun hb => ?_, h.queued_step hs, h.called_step hi hs⟩
    · rcases hs.flow with heq | hf
      · rw [heq]
        exact h.inHand
      · exact fun f hmem => h.inHand f (hf.inHand hpoll f hmem)
    · rw [hs.finalStatus_eq hpoll]
      rcases hs.flow with heq | hf
      · exact h.listed (heq ▸ hb)
      · exact h.listed (hf.mayFallBack hpoll hb)

end Run

/-! ### Sessions -/

/-- A run and the payloads its polls have received, newest first. -/
structure Session where
  run : Run
  polled : List Json := []

inductive SessionEvent
  | tellStatus (res : Result Json)
  | other (e : Event)

namespace Session

def step (S : Setup) (s : Session) : SessionEvent → Option Session
  | .tellStatus res =>
    (Run.step S s.run (.status (Aria2.status res))).map fun run =>
      ⟨run, res.toOption.toList ++ s.polled⟩
  | .other (.status _) => none
  | .other e => (Run.step S s.run e).map fun run => { s with run := run }

def finished (s : Session) (file : Path) : Bool := s.polled.any (Aria2.reportsFinished · file)

/-- Every call of `upload_file` so far was for a finished file. -/
def OnlyFinished (s : Session) : Prop := ∀ f, .uploadFile f ∈ s.run.calls → s.finished f = true

/-- A payload that does not fail the run lists no entry that neither it nor an earlier payload
reports as finished. -/
def listsFinished (s : Session) : SessionEvent → Bool
  | .tellStatus (.ok j) =>
    Aria2.state j == .error || Aria2.state j == .removed ||
      (Aria2.paths j).all fun f => Aria2.reportsFinished j f || s.finished f
  | _ => true

end Session

def Setup.session (S : Setup) : Machine Session SessionEvent := ⟨Session.step S⟩

namespace Session

variable {S : Setup} {s s' : Session} {e : SessionEvent} {t : List SessionEvent}

/-- A session's step is a step of its run, a poll's with the status of its payload. -/
theorem step_inv (h : S.session.step s e = some s') :
    (∃ res, e = .tellStatus res ∧ Run.Step S s.run (.status (Aria2.status res)) s'.run ∧
      s'.polled = res.toOption.toList ++ s.polled) ∨
    ∃ e', (∀ x, e' ≠ .status x) ∧ Run.Step S s.run e' s'.run ∧ s'.polled = s.polled := by
  change Session.step S s e = some s' at h
  unfold Session.step at h
  split at h
  · obtain ⟨run, hrun, rfl⟩ := Option.map_eq_some_iff.1 h
    exact .inl ⟨_, rfl, Run.step_inv hrun, rfl⟩
  · cases h
  · rename_i e' hne
    obtain ⟨run, hrun, rfl⟩ := Option.map_eq_some_iff.1 h
    exact .inr ⟨e', fun x hx => hne x (by rw [hx]), Run.step_inv hrun, rfl⟩

structure Ok (S : Setup) (s : Session) : Prop where
  inv : s.run.Inv S
  within : s.run.Within fun f => s.finished f = true

theorem Ok.step (h : s.Ok S) (hl : s.listsFinished e = true) (hs : S.session.step s e = some s') :
    s'.Ok S := by
  rcases step_inv hs with ⟨res, rfl, hrun, hpolled⟩ | ⟨e', hne, hrun, hpolled⟩
  · have hgrow : ∀ f, s.finished f = true → s'.finished f = true := by
      intro f hf
      unfold finished at hf ⊢
      rw [hpolled, List.any_append, hf, Bool.or_true]
    refine ⟨h.inv.step hrun, (h.within.mono hgrow).step h.inv hrun ?_⟩
    intro st hst
    obtain ⟨j, rfl, rfl⟩ := Aria2.status_eq_ok (Event.status.inj hst)
    obtain ⟨hfiles, hstate⟩ := Aria2.toStatus_files j
    rw [hfiles, hstate]
    simp only [listsFinished, Bool.or_eq_true, beq_iff_eq, List.all_eq_true] at hl
    rcases hl with (hl | hl) | hl
    · exact .inl hl
    · exact .inr (.inl hl)
    · refine .inr (.inr fun f hf => ?_)
      rcases hl f hf with hj | hj
      · unfold finished
        rw [hpolled]
        exact List.any_eq_true.2 ⟨j, List.mem_cons_self, hj⟩
      · exact hgrow f hj
  · have hsame : s'.finished = s.finished := by
      funext f
      unfold finished
      rw [hpolled]
    refine ⟨h.inv.step hrun, hsame ▸ h.within.step h.inv hrun ?_⟩
    intro st hst
    exact absurd hst (hne _)

/-- When the polled payloads list finished entries only, `upload_file` is called for a path only
after a payload has reported it as finished. -/
theorem only_finished_uploaded (S : Setup) {t : List SessionEvent} {s : Session}
    (h : S.session.Steps (fun s e => s.listsFinished e = true) ⟨S.init, []⟩ t s) : s.OnlyFinished := by
  have hok : s.Ok S := by
    refine h.invariant ⟨Run.inv_init S, Run.within_init S⟩ ?_
    intro s e s' hl hs hstep
    exact hs.step hl hstep
  exact hok.within.called

/-- A `tellStatus` object with the given status and (path, length, completedLength) entries. -/
def payload (status : String) (entries : List (String × String × String)) : Json :=
  .object [("gid", .string "g"), ("status", .string status),
    ("files", .array (entries.map fun (path, length, completed) =>
      .object [("path", .string path), ("length", .string length),
        ("completedLength", .string completed)]))]

/-- From the start to the first `upload_file`, on the payload `j` of the first poll. -/
def pollTrace (j : Json) : List SessionEvent :=
  Event.toLoop.map .other ++ [.other (.head false false), .tellStatus (.ok j), .other .run, .other .run,
    .other (.commit (.ok ())), .other .run, .other .run, .other (.uploadStarted 0)]

set_option maxRecDepth 4000 in
/-- The first payload lists a finished file, and its upload starts while the download is active. -/
theorem finished_file_uploaded :
    ∃ s, (Setup.sample MirrorUrl.useCase 2 true).session.Steps (fun s e => s.listsFinished e = true)
      ⟨(Setup.sample MirrorUrl.useCase 2 true).init, []⟩
      (pollTrace (payload "active" [("d/a", "10", "10")])) s ∧
      .uploadFile "d/a" ∈ s.run.calls ∧ s.OnlyFinished := by
  have hobs : ((Setup.sample MirrorUrl.useCase 2 true).session.runIf (fun s e => s.listsFinished e)
      ⟨(Setup.sample MirrorUrl.useCase 2 true).init, []⟩
      (pollTrace (payload "active" [("d/a", "10", "10")]))).map
        (fun s => decide (.uploadFile "d/a" ∈ s.run.calls)) = some true := by decide
  obtain ⟨s, hs, ho⟩ := Machine.exists_steps hobs
  exact ⟨s, hs, of_decide_eq_true ho, only_finished_uploaded _ hs⟩

set_option maxRecDepth 4000 in
/-- aria2 has 3 of 10 bytes of the file, and the first poll starts its upload. -/
theorem unfinished_file_uploaded : ¬ ∀ (S : Setup) (t : List SessionEvent) (s : Session),
    S.supportsPipelining = true → (∀ j ∈ s.polled, Aria2.describesFiles j = true) →
      S.session.Runs ⟨S.init, []⟩ t s → s.OnlyFinished := by
  intro hall
  have hobs : ((Setup.sample MirrorUrl.useCase 2 true).session.run
      ⟨(Setup.sample MirrorUrl.useCase 2 true).init, []⟩
      (pollTrace (payload "active" [("d/a", "10", "3")]))).map
        (fun s => (decide (.uploadFile "d/a" ∈ s.run.calls), s.polled.all Aria2.describesFiles,
          s.finished "d/a")) = some (true, true, false) := by decide
  obtain ⟨s, hs, ho⟩ := Machine.exists_runs hobs
  simp only [Prod.mk.injEq, decide_eq_true_eq, List.all_eq_true] at ho
  obtain ⟨hcall, hwell, hnot⟩ := ho
  have hfin := hall _ _ s rfl hwell hs "d/a" hcall
  rw [hnot] at hfin
  cases hfin

end Session

end Cmlb
