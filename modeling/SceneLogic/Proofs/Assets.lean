/-
Which loads are made for the assets that are asked for.

The loads that come with requests can be made to keep a journal, which changes nothing else
(`answer_journaled`).  Behind any requests the journal tells what the assets know (`Records`): a file
is there when a load of it has returned, and it has a handle when a load gave one, which was then the
last load of the file.  So a file with a handle is served, and one without is loaded
(`loads_once`).  That is once for each file whose load gives a handle; a load that returns without
one is made again when its file is asked for again (`nothing_is_loaded_again`).
-/
import Mathlib.Data.List.Induction
import SceneLogic.Assets
import SceneLogic.Table
namespace SceneLogic.Assets

variable {σ H : Type} {a : Assets H} {filename other : String} {handle : Option H}

/-! ### Files and handles -/

/-- What is kept for a file in place of what was kept before. -/
def replaced (filename : String) (handle : Option H) (entries : List (String × Option H)) :
    List (String × Option H) :=
  entries.map fun e => if e.1 = filename then (filename, handle) else e

theorem map_fst_replaced (entries : List (String × Option H)) :
    (replaced filename handle entries).map Prod.fst = entries.map Prod.fst := by
  rw [replaced, List.map_map]
  refine List.map_congr_left fun e _ => ?_
  by_cases same : e.1 = filename <;> simp [same]

theorem lookup_replaced_self {entries : List (String × Option H)}
    (known : (entries.lookup filename).isSome) :
    (replaced filename handle entries).lookup filename = some handle := by
  induction entries with
  | nil => cases known
  | cons e entries ih =>
    obtain ⟨file, before⟩ := e
    by_cases same : filename = file
    · simp [replaced, same]
    · rw [lookup_cons_eq, if_neg same] at known
      simpa [replaced, Ne.symm same, lookup_cons_eq, same] using ih known

theorem lookup_replaced_of_ne (ne : other ≠ filename) (entries : List (String × Option H)) :
    (replaced filename handle entries).lookup other = entries.lookup other := by
  induction entries with
  | nil => rfl
  | cons e entries ih =>
    obtain ⟨file, before⟩ := e
    show ((if file = filename then (filename, handle) else (file, before)) ::
      replaced filename handle entries).lookup other = _
    rw [lookup_cons_eq, lookup_cons_eq, ih]
    by_cases same : file = filename
    · rw [if_pos same, if_neg ne, if_neg (same ▸ ne)]
    · rw [if_neg same]

theorem keep_entries (a : Assets H) (filename : String) (handle : Option H) :
    (a.keep filename handle).entries =
      if a.has filename then replaced filename handle a.entries
      else a.entries ++ [(filename, handle)] :=
  rfl

/-- A file has what was kept for it last. -/
theorem lookup_keep (a : Assets H) (filename : String) (handle : Option H) (other : String) :
    (a.keep filename handle).entries.lookup other =
      if other = filename then some handle else a.entries.lookup other := by
  rw [keep_entries]
  split
  · next known =>
    by_cases same : other = filename
    · rw [if_pos same, same, lookup_replaced_self known]
    · rw [if_neg same, lookup_replaced_of_ne same]
  · next unknown =>
    rw [has, Bool.not_eq_true, Option.isSome_eq_false_iff, Option.isNone_iff_eq_none] at unknown
    rw [List.lookup_append, lookup_cons_eq]
    by_cases same : other = filename
    · rw [same, unknown]
      simp
    · simp [same]

theorem nodup_keep (distinct : (a.entries.map Prod.fst).Nodup) (filename : String)
    (handle : Option H) : ((a.keep filename handle).entries.map Prod.fst).Nodup := by
  rw [keep_entries]
  split
  · rw [map_fst_replaced]
    exact distinct
  · next unknown =>
    rw [List.map_append, List.map_singleton]
    refine List.nodup_append.2 ⟨distinct, List.pairwise_singleton _ _, fun file mem last is_last => ?_⟩
    rw [List.mem_singleton.1 is_last]
    rintro rfl
    refine unknown ?_
    obtain ⟨e, mem, same⟩ := List.mem_map.1 mem
    exact List.lookup_isSome_iff.2 ⟨e, mem, by simp [same]⟩

/-! ### Requests -/

/-- A request for an asset, with the way to load it. -/
structure Request (σ H : Type) where
  filename : String
  load : String → σ → Except Fault (Option H) × σ

/-- A handle as it is handed out: shared, or copied if there is a way to copy. -/
def handedOut (copy : Option (H → σ → H × σ)) (handle : H) (world : σ) : H × σ :=
  match copy with
  | some copy => copy handle world
  | none => (handle, world)

/-- The answer to a request. -/
def Request.answer (copy : Option (H → σ → H × σ)) (s : Assets H × σ) (r : Request σ H) :
    Answer σ H :=
  s.1.acquire ⟨r.load, copy⟩ r.filename s.2

/-- The assets and the world behind some requests, with nothing loaded before. -/
def after (copy : Option (H → σ → H × σ)) (world : σ) (requests : List (Request σ H)) :
    Assets H × σ :=
  requests.foldl (fun s r => ((r.answer copy s).assets, (r.answer copy s).world)) ({}, world)

variable {copy : Option (H → σ → H × σ)} {world : σ} {r : Request σ H}

theorem after_concat (requests : List (Request σ H)) (r : Request σ H) :
    after copy world (requests ++ [r]) =
      ((r.answer copy (after copy world requests)).assets,
        (r.answer copy (after copy world requests)).world) := by
  rw [after, List.foldl_append]
  rfl

theorem answer_of_handle {h : H} (named : r.filename ≠ "") (found : a.handle? r.filename = some h) :
    r.answer copy (a, world) =
      ⟨.ok (some (handedOut copy h world).1), a, (handedOut copy h world).2, []⟩ := by
  rw [Request.answer, acquire, if_neg named]
  simp only [found]
  cases copy <;> rfl

theorem answer_of_error {fault : Fault} {world' : σ} (named : r.filename ≠ "")
    (missing : a.handle? r.filename = none)
    (loaded : r.load r.filename world = (.error fault, world')) :
    r.answer copy (a, world) = ⟨.error fault, a, world', []⟩ := by
  rw [Request.answer, acquire, if_neg named]
  simp only [missing, fetch, loaded]

theorem answer_of_ok {world' : σ} (named : r.filename ≠ "")
    (missing : a.handle? r.filename = none)
    (loaded : r.load r.filename world = (.ok handle, world')) :
    r.answer copy (a, world) =
      ⟨.ok handle, a.keep r.filename handle, world', [loadedLog r.filename]⟩ := by
  rw [Request.answer, acquire, if_neg named]
  simp only [missing, fetch, loaded]

theorem answer_of_blank (blank : r.filename = "") :
    r.answer copy (a, world) = ⟨.error .blankFilename, a, world, []⟩ := by
  rw [Request.answer, acquire, if_pos blank]

/-- All that an answer can be. -/
inductive Answered (copy : Option (H → σ → H × σ)) (a : Assets H) (world : σ) (r : Request σ H) :
    Answer σ H → Prop
  | unnamed : r.filename = "" → Answered copy a world r ⟨.error .blankFilename, a, world, []⟩
  | served {h : H} : r.filename ≠ "" → a.handle? r.filename = some h →
      Answered copy a world r
        ⟨.ok (some (handedOut copy h world).1), a, (handedOut copy h world).2, []⟩
  | failed {fault : Fault} {world' : σ} : r.filename ≠ "" → a.handle? r.filename = none →
      r.load r.filename world = (.error fault, world') →
      Answered copy a world r ⟨.error fault, a, world', []⟩
  | loaded {handle : Option H} {world' : σ} : r.filename ≠ "" → a.handle? r.filename = none →
      r.load r.filename world = (.ok handle, world') →
      Answered copy a world r
        ⟨.ok handle, a.keep r.filename handle, world', [loadedLog r.filename]⟩

theorem answered (copy : Option (H → σ → H × σ)) (a : Assets H) (world : σ) (r : Request σ H) :
    Answered copy a world r (r.answer copy (a, world)) := by
  by_cases named : r.filename = ""
  · rw [answer_of_blank named]
    exact .unnamed named
  · cases found : a.handle? r.filename with
    | some h =>
      rw [answer_of_handle named found]
      exact .served named found
    | none =>
      cases loaded : r.load r.filename world with
      | mk result world' =>
        cases result with
        | error fault =>
          rw [answer_of_error named found loaded]
          exact .failed named found loaded
        | ok handle =>
          rw [answer_of_ok named found loaded]
          exact .loaded named found loaded

/-! ### Journals -/

/-- The loads that were made, in order: of which file, and what came of each. -/
abbrev Journal (H : Type) := List (String × Except Fault (Option H))

/-- A way to load that enters in a journal what it was asked for and what it gave. -/
def journaledLoad (load : String → σ → Except Fault (Option H) × σ) (filename : String)
    (w : σ × Journal H) : Except Fault (Option H) × σ × Journal H :=
  ((load filename w.1).1, (load filename w.1).2, w.2 ++ [(filename, (load filename w.1).1)])

/-- A way to copy that leaves a journal alone. -/
def journaledCopy (copy : H → σ → H × σ) (handle : H) (w : σ × Journal H) : H × σ × Journal H :=
  ((copy handle w.1).1, (copy handle w.1).2, w.2)

/-- A request whose load keeps a journal. -/
def Request.journaled (r : Request σ H) : Request (σ × Journal H) H where
  filename := r.filename
  load := journaledLoad r.load

variable {journal : Journal H}

theorem handedOut_journaled (h : H) :
    handedOut (copy.map journaledCopy) h (world, journal) =
      ((handedOut copy h world).1, (handedOut copy h world).2, journal) := by
  cases copy <;> rfl

/-- The journal behind a request: a file without a handle is loaded. -/
def journalBehind (a : Assets H) (world : σ) (journal : Journal H) (r : Request σ H) : Journal H :=
  if r.filename ≠ "" ∧ a.handle? r.filename = none then
    journal ++ [(r.filename, (r.load r.filename world).1)]
  else journal

/-- **Keeping a journal changes nothing else.** -/
theorem answer_journaled (a : Assets H) (journal : Journal H) (r : Request σ H) :
    r.journaled.answer (copy.map journaledCopy) (a, world, journal) =
      ⟨(r.answer copy (a, world)).result, (r.answer copy (a, world)).assets,
        ((r.answer copy (a, world)).world, journalBehind a world journal r),
        (r.answer copy (a, world)).log⟩ := by
  have kept : r.journaled.load r.filename (world, journal) = ((r.load r.filename world).1,
      (r.load r.filename world).2, journal ++ [(r.filename, (r.load r.filename world).1)]) :=
    rfl
  have cases := answered copy a world r
  generalize r.answer copy (a, world) = plain at cases
  cases cases with
  | unnamed blank =>
    rw [answer_of_blank (r := r.journaled) blank]
    simp [journalBehind, blank]
  | served named found =>
    rw [answer_of_handle (r := r.journaled) named found, handedOut_journaled]
    simp [journalBehind, found]
  | failed named missing loaded =>
    rw [loaded] at kept
    rw [answer_of_error (r := r.journaled) named missing kept, journalBehind,
      if_pos ⟨named, missing⟩, loaded]
  | loaded named missing loaded =>
    rw [loaded] at kept
    rw [answer_of_ok (r := r.journaled) named missing kept, journalBehind,
      if_pos ⟨named, missing⟩, loaded]
    rfl

/-! ### What a journal tells -/

/-- The assets know what the journal tells. -/
structure Records (a : Assets H) (journal : Journal H) : Prop where
  distinct : (a.entries.map Prod.fst).Nodup
  named : ∀ e ∈ journal, e.1 ≠ ""
  /-- A file is there when a load of it has returned. -/
  has : ∀ filename, a.has filename ↔ ∃ handle, (filename, .ok handle) ∈ journal
  /-- A file has the handle that a load of it gave. -/
  handle : ∀ filename h, a.handle? filename = some h ↔ (filename, .ok (some h)) ∈ journal
  /-- Behind a load that gave a handle its file is not loaded. -/
  settled : journal.Pairwise fun earlier later =>
    earlier.1 = later.1 → ∀ h, earlier.2 ≠ .ok (some h)

theorem records_empty : Records ({} : Assets H) [] where
  distinct := List.Pairwise.nil
  named := by simp
  has := by simp [Assets.has]
  handle := by simp [handle?]
  settled := List.Pairwise.nil

theorem has_keep (a : Assets H) (filename : String) (handle : Option H) (other : String) :
    (a.keep filename handle).has other ↔ other = filename ∨ a.has other := by
  rw [has, lookup_keep, has]
  by_cases same : other = filename <;> simp [same]

theorem handle?_keep (a : Assets H) (filename : String) (handle : Option H) (other : String) :
    (a.keep filename handle).handle? other =
      if other = filename then handle else a.handle? other := by
  rw [handle?, lookup_keep, handle?]
  by_cases same : other = filename <;> simp [same]

namespace Records

theorem named_concat (now : Records a journal) (named : filename ≠ "")
    (result : Except Fault (Option H)) : ∀ e ∈ journal ++ [(filename, result)], e.1 ≠ "" := by
  intro e mem
  rcases List.mem_append.1 mem with earlier | last
  · exact now.named e earlier
  · rw [List.mem_singleton.1 last]
    exact named

/-- A file without a handle may be loaded. -/
theorem settled_concat (now : Records a journal) (missing : a.handle? filename = none)
    (result : Except Fault (Option H)) :
    (journal ++ [(filename, result)]).Pairwise fun earlier later =>
      earlier.1 = later.1 → ∀ h, earlier.2 ≠ .ok (some h) := by
  refine List.pairwise_append.2 ⟨now.settled, List.pairwise_singleton _ _, ?_⟩
  rintro ⟨file, gave⟩ earlier last is_last same h rfl
  rw [List.mem_singleton.1 is_last] at same
  obtain rfl : file = filename := same
  rw [(now.handle file h).2 earlier] at missing
  cases missing

theorem load_error (now : Records a journal) (named : filename ≠ "")
    (missing : a.handle? filename = none) (fault : Fault) :
    Records a (journal ++ [(filename, .error fault)]) where
  distinct := now.distinct
  named := now.named_concat named _
  has := by
    intro other
    simp [now.has]
  handle := by
    intro other h
    simp [now.handle]
  settled := now.settled_concat missing _

theorem load_ok (now : Records a journal) (named : filename ≠ "")
    (missing : a.handle? filename = none) (handle : Option H) :
    Records (a.keep filename handle) (journal ++ [(filename, .ok handle)]) where
  distinct := nodup_keep now.distinct filename handle
  named := now.named_concat named _
  has := by
    intro other
    rw [has_keep, now.has]
    simp only [List.mem_append, List.mem_singleton, Prod.mk.injEq, Except.ok.injEq]
    constructor
    · rintro (same | ⟨gave, earlier⟩)
      · exact ⟨handle, .inr ⟨same, rfl⟩⟩
      · exact ⟨gave, .inl earlier⟩
    · rintro ⟨gave, earlier | ⟨same, -⟩⟩
      · exact .inr ⟨gave, earlier⟩
      · exact .inl same
  handle := by
    intro other h
    rw [handle?_keep]
    simp only [List.mem_append, List.mem_singleton, Prod.mk.injEq, Except.ok.injEq]
    by_cases same : other = filename
    · subst same
      have unloaded : (other, .ok (some h)) ∉ journal := by
        rw [← now.handle, missing]
        simp
      simp [unloaded, eq_comm]
    · simp [same, now.handle]
  settled := now.settled_concat missing _

/-- What the journal tells holds behind a request. -/
theorem answer (now : Records a journal) (copy : Option (H → σ → H × σ)) (world : σ)
    (r : Request σ H) :
    Records (r.answer copy (a, world)).assets (journalBehind a world journal r) := by
  have cases := answered copy a world r
  generalize r.answer copy (a, world) = answer at cases
  cases cases with
  | unnamed blank => simpa [journalBehind, blank] using now
  | served named found => simpa [journalBehind, found] using now
  | failed named missing loaded =>
    rw [journalBehind, if_pos ⟨named, missing⟩, loaded]
    exact now.load_error named missing _
  | loaded named missing loaded =>
    rw [journalBehind, if_pos ⟨named, missing⟩, loaded]
    exact now.load_ok named missing _

end Records

/-! ### Any requests -/

/-- The assets, the world and the journal behind some requests. -/
def recorded (copy : Option (H → σ → H × σ)) (world : σ) (requests : List (Request σ H)) :
    Assets H × σ × Journal H :=
  after (copy.map journaledCopy) (world, []) (requests.map Request.journaled)

theorem recorded_concat (requests : List (Request σ H)) (r : Request σ H) :
    recorded copy world (requests ++ [r]) =
      let (a, world, journal) := recorded copy world requests
      ((r.answer copy (a, world)).assets, (r.answer copy (a, world)).world,
        journalBehind a world journal r) := by
  rw [recorded, List.map_append, List.map_singleton, after_concat, ← recorded]
  obtain ⟨a, world, journal⟩ := recorded copy world requests
  rw [answer_journaled]

theorem after_eq (copy : Option (H → σ → H × σ)) (world : σ) (requests : List (Request σ H)) :
    after copy world requests =
      ((recorded copy world requests).1, (recorded copy world requests).2.1) := by
  induction requests using List.reverseRecOn with
  | nil => rfl
  | append_singleton requests r ih => rw [after_concat, recorded_concat, ih]

/-- **A journal tells what the assets know.** -/
theorem records_recorded (copy : Option (H → σ → H × σ)) (world : σ)
    (requests : List (Request σ H)) :
    Records (recorded copy world requests).1 (recorded copy world requests).2.2 := by
  induction requests using List.reverseRecOn with
  | nil => exact records_empty
  | append_singleton requests r ih =>
    rw [recorded_concat]
    exact ih.answer copy _ r

/-- What is loaded and what is served, given the journal of the loads before. -/
structure LoadsOnce (copy : Option (H → σ → H × σ)) (a : Assets H) (world : σ)
    (journal : Journal H) : Prop where
  /-- The answer to a request is the same without a journal. -/
  alike : ∀ r : Request σ H,
    let kept := r.journaled.answer (copy.map journaledCopy) (a, world, journal)
    r.answer copy (a, world) = ⟨kept.result, kept.assets, kept.world.1, kept.log⟩
  /-- Those files are there, and counted, of which a load has returned, be it without a handle. -/
  has : ∀ filename, a.has filename ↔ ∃ handle, (filename, .ok handle) ∈ journal
  size : ∃ files : List String, files.Nodup ∧ a.size = files.length ∧
    ∀ filename, filename ∈ files ↔ ∃ handle, (filename, .ok handle) ∈ journal
  /-- Behind a load that gave a handle its file was not loaded again. -/
  once : journal.Pairwise fun earlier later => earlier.1 = later.1 → ∀ h, earlier.2 ≠ .ok (some h)
  /-- It is not loaded from now on either: the handle is served, or a copy of it. -/
  served : ∀ (r : Request σ H) h, (r.filename, .ok (some h)) ∈ journal →
    r.journaled.answer (copy.map journaledCopy) (a, world, journal) =
      ⟨.ok (some (handedOut copy h world).1), a, ((handedOut copy h world).2, journal), []⟩
  /-- A file of which no load gave a handle is loaded, and the answer is what the load gives. -/
  loaded : ∀ r : Request σ H, r.filename ≠ "" → (∀ h, (r.filename, .ok (some h)) ∉ journal) →
    let kept := r.journaled.answer (copy.map journaledCopy) (a, world, journal)
    kept.result = (r.load r.filename world).1 ∧
      kept.world = ((r.load r.filename world).2,
        journal ++ [(r.filename, (r.load r.filename world).1)])
  /-- A request that fails leaves the assets as they are. -/
  failed : ∀ (r : Request σ H) fault, (r.answer copy (a, world)).result = .error fault →
    (r.answer copy (a, world)).assets = a
  unnamed : ∀ r : Request σ H, r.filename = "" →
    r.journaled.answer (copy.map journaledCopy) (a, world, journal) =
      ⟨.error .blankFilename, a, (world, journal), []⟩

theorem Records.loadsOnce (now : Records a journal) (copy : Option (H → σ → H × σ)) (world : σ) :
    LoadsOnce copy a world journal where
  alike := by
    intro r
    simp only [answer_journaled]
  has := now.has
  size := by
    refine ⟨a.entries.map Prod.fst, now.distinct, (List.length_map _).symm, fun filename => ?_⟩
    rw [← now.has, Assets.has, List.lookup_isSome_iff, List.mem_map]
    exact exists_congr fun e => and_congr_right fun _ => by rw [beq_iff_eq, eq_comm]
  once := now.settled
  served := by
    intro r h gave
    rw [answer_of_handle (r := r.journaled) (now.named _ gave) ((now.handle _ h).2 gave),
      handedOut_journaled]
  loaded := by
    intro r named none_gave
    have missing : a.handle? r.filename = none := by
      refine Option.eq_none_iff_forall_ne_some.2 fun h found => ?_
      exact none_gave h ((now.handle _ h).1 found)
    simp only [answer_journaled, journalBehind, if_pos (And.intro named missing)]
    have cases := answered copy a world r
    generalize r.answer copy (a, world) = answer at cases
    cases cases with
    | unnamed blank => exact absurd blank named
    | served _ found =>
      rw [missing] at found
      cases found
    | failed _ _ loaded =>
      rw [loaded]
      exact ⟨rfl, rfl⟩
    | loaded _ _ loaded =>
      rw [loaded]
      exact ⟨rfl, rfl⟩
  failed := by
    intro r fault fails
    have cases := answered copy a world r
    generalize r.answer copy (a, world) = answer at cases fails
    cases cases with
    | unnamed _ | failed _ _ _ => rfl
    | served _ _ | loaded _ _ _ => cases fails
  unnamed := fun r blank => answer_of_blank (r := r.journaled) blank

/-- **What is loaded behind any requests.**  Requests whose loads keep a journal leave the same
assets and the same world as without it, and the journal decides which requests to come are served
and which are loaded: a file is loaded until one of its loads gives a handle, and never again. -/
theorem loads_once (copy : Option (H → σ → H × σ)) (world : σ) (requests : List (Request σ H)) :
    ∃ a now journal,
      after (copy.map journaledCopy) (world, []) (requests.map Request.journaled) =
        (a, now, journal) ∧
      after copy world requests = (a, now) ∧ LoadsOnce copy a now journal :=
  ⟨_, _, _, rfl, after_eq copy world requests,
    (records_recorded copy world requests).loadsOnce copy _⟩

/-- A request for a file whose load returns without a handle. -/
def emptyRequest : Request Unit String := ⟨"crate.obj", fun _ world => (.ok none, world)⟩

/-- **A load that gave nothing is made again**, although the file is there. -/
theorem nothing_is_loaded_again :
    (after none ((), []) [emptyRequest.journaled]).1.has "crate.obj" ∧
      (after none ((), []) [emptyRequest.journaled, emptyRequest.journaled]).2.2 =
        [("crate.obj", .ok none), ("crate.obj", .ok none)] :=
  ⟨rfl, rfl⟩

end SceneLogic.Assets
