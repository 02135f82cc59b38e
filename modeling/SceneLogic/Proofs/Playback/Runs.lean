/-
Runs of commands, and what is loaded in them.

`performAll` carries out commands one after the other; its events are those of the chronicle of the
commands (`performAll_eq`).  Graphs come and go by loading and unloading alone, and nothing else
changes the repertoire, that is the loaded graphs with what is played of them
(`repertoire_perform`).  So in all that a run reaches every graph has a carrier of its own and is
played by its program (`orderly_performAll`).  Graphs that are compiled can be played, and those
that can be played are loaded one after the other if their carriers are distinct
(`exists_loadAll`).
-/
import Mathlib.Data.List.Forall2
import Mathlib.Data.List.Nodup
import SceneLogic.Proofs.Compile.Blueprints
import SceneLogic.Proofs.Playback.Effects
namespace SceneLogic

/-- A graph can be played. -/
def Graph.Playable (g : Graph) : Prop := ∃ program, g.program = .ok program

theorem playable_of_compile {c c' : Compilation} {config : Config} {scene : Scene}
    {record : Record} {object : Option String} {compiled : Compiled}
    (h : c.compile config scene record object = (.ok compiled, c')) : compiled.graph.Playable := by
  cases record with
  | timeline t =>
    obtain ⟨carrier, script, graph⟩ := Compilation.compile_timeline h
    rw [graph]
    exact ⟨_, Blueprint.timeline_program ..⟩
  | region t =>
    obtain ⟨carrier, script, tracked, -, graph⟩ := Compilation.compile_region h
    rw [graph]
    exact ⟨_, Blueprint.region_program ..⟩
  | link l =>
    obtain ⟨target, script, -, graph⟩ := Compilation.compile_link h
    rw [graph]
    exact ⟨_, Blueprint.link_program ..⟩

/-- A graph is loaded or unloaded. -/
def Moment.isLoading : Moment → Bool
  | load _ | unload _ => true
  | _ => false

/-- A graph is to be loaded or unloaded. -/
def Command.isLoading : Command → Bool
  | load _ | unload _ => true
  | _ => false

namespace Loaded

/-- The graph that is played, with its program. -/
def piece (l : Loaded) : Graph × Program := (l.graph, l.program)

theorem Plays.piece_eq {l : Loaded} {g : Graph} {program : Program} (h : l.Plays g program) :
    l.piece = (g, program) :=
  Prod.ext h.1 h.2

@[simp] theorem piece_evaluate (l : Loaded) (position? : String → Option (Triple Number)) :
    (l.evaluate position?).1.piece = l.piece :=
  (plays_evaluate ⟨rfl, rfl⟩ position?).piece_eq

@[simp] theorem piece_click (l : Loaded) : l.click.1.piece = l.piece :=
  (plays_click ⟨rfl, rfl⟩).piece_eq

@[simp] theorem piece_affected (l : Loaded) (a : Action) : (l.affected a).piece = l.piece :=
  (plays_affected ⟨rfl, rfl⟩ a).piece_eq

/-- A graph that is played by its own program is loaded as it is restored. -/
theorem ofGraph_eq_restored {l : Loaded} (h : l.graph.program = .ok l.program) :
    ofGraph l.graph = .ok l.restored := by
  rw [ofGraph, h]
  rfl

end Loaded

namespace Playback

variable {p : Playback}

/-! ### Runs -/

/-- Carries out commands one after the other, with the events that are reported. -/
def performAll (p : Playback) : List Command → Playback × List Event
  | [] => (p, [])
  | c :: cs =>
    let (p, events) := p.perform c
    let (p, later) := p.performAll cs
    (p, events ++ later)

theorem performAll_cons (p : Playback) (c : Command) (cs : List Command) :
    p.performAll (c :: cs) = (((p.perform c).1.performAll cs).1,
      (p.perform c).2 ++ ((p.perform c).1.performAll cs).2) :=
  rfl

/-- A run is what its chronicle tells of it. -/
theorem performAll_eq (p : Playback) (cs : List Command) :
    ∃ ms, p.chronicle cs = p.trail ms ∧
      p.performAll cs = (p.after ms, events (p.chronicle cs)) := by
  induction cs generalizing p with
  | nil => exact ⟨[], rfl, rfl⟩
  | cons c cs ih =>
    obtain ⟨ms, told, done⟩ := ih (p.perform c).1
    refine ⟨p.moments c ++ ms, ?_, ?_⟩
    · rw [chronicle, told, trail_append, perform_eq]
    · rw [performAll_cons, done, chronicle, events_append, after_append, perform_eq]

theorem chronicle_append (p : Playback) (cs cs' : List Command) :
    p.chronicle (cs ++ cs') = p.chronicle cs ++ (p.performAll cs).1.chronicle cs' := by
  induction cs generalizing p with
  | nil => rfl
  | cons c cs ih =>
    rw [List.cons_append, chronicle, ih, chronicle, List.append_assoc]
    rfl

theorem performAll_append (p : Playback) (cs cs' : List Command) :
    (p.performAll (cs ++ cs')).1 = ((p.performAll cs).1.performAll cs').1 := by
  induction cs generalizing p with
  | nil => rfl
  | cons c cs ih => exact ih (p.perform c).1

/-- What a tick does before its effects are applied: it evaluates what is loaded and delivers the
clicks that were queued. -/
def respond (p : Playback) (position? : String → Option (Triple Number)) : Playback × List Event :=
  let (evaluated, events) := { p with ticks := p.ticks + 1, queued := [] }.evaluateAll position?
  let (delivered, later) := evaluated.deliverAll p.queued
  (delivered, events ++ later)

theorem perform_tick (p : Playback) (position? : String → Option (Triple Number)) :
    p.perform (.tick position?) =
      ((p.respond position?).1.apply ((p.respond position?).2.map Event.action),
        (p.respond position?).2) :=
  rfl

theorem perform_click (p : Playback) (object : String) : p.perform (.click object) =
    ((p.deliver object).1.apply ((p.deliver object).2.map Event.action),
      (p.deliver object).2) := by
  rw [perform, click]
  cases found : p.find? .link object with
  | some l => rfl
  | none =>
    rw [deliver, found]
    rfl

/-- What every command keeps is true after a run. -/
theorem performAll_induction {I : Playback → Prop} (step : ∀ q c, I q → I (q.perform c).1)
    (start : I p) (cs : List Command) : I (p.performAll cs).1 := by
  induction cs generalizing p with
  | nil => exact start
  | cons c cs ih => exact ih (step p c start)

/-! ### The repertoire -/

/-- The loaded graphs with what is played of them. -/
def repertoire (p : Playback) : List (Graph × Program) := p.loaded.map Loaded.piece

/-- The loaded graphs. -/
def graphs (p : Playback) : List Graph := p.loaded.map Loaded.graph

theorem graphs_eq (p : Playback) : p.graphs = p.repertoire.map Prod.fst := by
  rw [graphs, repertoire, List.map_map]
  rfl

/-- Only loading and unloading change the repertoire. -/
theorem repertoire_happen (p : Playback) {m : Moment} (other : m.isLoading = false) :
    (p.happen m).1.repertoire = p.repertoire := by
  cases m with
  | load | unload => cases other
  | evaluate position? =>
    show (p.loaded.map _).map _ = _
    rw [List.map_map]
    exact List.map_congr_left fun l _ => l.piece_evaluate position?
  | deliver object =>
    show (p.deliver object).1.repertoire = _
    rw [deliver_eq]
    exact map_changeFirst fun l => l.piece_click
  | effect a =>
    show (p.applyOne a).repertoire = _
    rw [applyOne_eq]
    exact map_changeFirst fun l => l.piece_affected a
  | reset =>
    show (p.loaded.map _).map _ = _
    rw [List.map_map]
    rfl

theorem repertoire_after (p : Playback) {ms : List Moment}
    (other : ∀ m ∈ ms, m.isLoading = false) : (p.after ms).repertoire = p.repertoire := by
  induction ms generalizing p with
  | nil => rfl
  | cons m ms ih =>
    show ((p.happen m).1.after ms).repertoire = _
    rw [ih _ fun x hx => other x (List.mem_cons_of_mem m hx),
      repertoire_happen p (other m List.mem_cons_self)]

theorem mem_settling {actions : List Action} {m : Moment} (h : m ∈ settling actions) :
    (∃ a, m = .effect a) ∨ m = .reset := by
  rcases List.mem_append.1 h with h | h
  · obtain ⟨a, -, rfl⟩ := List.mem_map.1 h
    exact .inl ⟨a, rfl⟩
  · split at h
    · exact .inr (List.mem_singleton.1 h)
    · cases h

theorem isLoading_settling {actions : List Action} {m : Moment} (h : m ∈ settling actions) :
    m.isLoading = false := by
  obtain ⟨a, rfl⟩ | rfl := mem_settling h <;> rfl

/-- Graphs are loaded and unloaded only by the commands to do so. -/
theorem isLoading_moments {c : Command} (other : c.isLoading = false) {m : Moment}
    (h : m ∈ p.moments c) : m.isLoading = false := by
  cases c with
  | load | unload => cases other
  | tick position? =>
    rcases List.mem_append.1 h with h | h
    · rcases List.mem_cons.1 h with rfl | h
      · rfl
      · obtain ⟨object, -, rfl⟩ := List.mem_map.1 h
        rfl
    · exact isLoading_settling h
  | click object =>
    rcases List.mem_cons.1 h with rfl | h
    · rfl
    · exact isLoading_settling h
  | apply actions => exact isLoading_settling h
  | reset =>
    rw [List.mem_singleton.1 h]
    rfl

theorem repertoire_perform (p : Playback) {c : Command} (other : c.isLoading = false) :
    (p.perform c).1.repertoire = p.repertoire := by
  rw [perform_eq]
  exact p.repertoire_after fun m h => isLoading_moments other h

theorem graphs_perform (p : Playback) {c : Command} (other : c.isLoading = false) :
    (p.perform c).1.graphs = p.graphs := by
  rw [graphs_eq, graphs_eq, p.repertoire_perform other]

theorem graphs_performAll (p : Playback) {cs : List Command}
    (other : ∀ c ∈ cs, c.isLoading = false) : (p.performAll cs).1.graphs = p.graphs := by
  induction cs generalizing p with
  | nil => rfl
  | cons c cs ih =>
    exact (ih _ fun x hx => other x (List.mem_cons_of_mem c hx)).trans
      (p.graphs_perform (other c List.mem_cons_self))

/-! ### Orderly states -/

/-- Every loaded graph has a carrier of its own and is played by its program. -/
structure Orderly (p : Playback) : Prop where
  distinct : (p.graphs.map Graph.carrier).Nodup
  programs : ∀ x ∈ p.repertoire, x.1.program = .ok x.2

theorem orderly_empty : ({} : Playback).Orderly := ⟨List.nodup_nil, by rintro x ⟨⟩⟩

theorem Orderly.congr {p p' : Playback} (same : p'.repertoire = p.repertoire) (h : p.Orderly) :
    p'.Orderly := by
  refine ⟨?_, ?_⟩
  · rw [graphs_eq, same, ← graphs_eq]
    exact h.distinct
  · rw [same]
    exact h.programs

theorem Orderly.load {p' : Playback} {g : Graph} (h : p.Orderly) (loads : p.load g = .ok p') :
    p'.Orderly := by
  obtain ⟨free, new, made, rfl⟩ := load_eq_ok loads
  obtain ⟨program, playable, rfl⟩ := Loaded.ofGraph_eq_ok made
  refine ⟨?_, ?_⟩
  · simp only [graphs, List.map_append, List.map_cons, List.map_nil, List.map_map]
    rw [List.nodup_append]
    refine ⟨?_, List.nodup_singleton _, ?_⟩
    · have := h.distinct
      rwa [graphs, List.map_map] at this
    · intro carrier taken other single same
      subst same
      obtain ⟨l, mem, rfl⟩ := List.mem_map.1 taken
      refine (List.filter_eq_nil_iff.1 free) l mem ?_
      rw [beq_iff_eq]
      exact List.mem_singleton.1 single
  · intro x hx
    simp only [repertoire, List.map_append, List.mem_append] at hx
    rcases hx with hx | hx
    · exact h.programs x hx
    · rw [List.mem_singleton.1 hx]
      exact playable

theorem Orderly.unload (h : p.Orderly) (carrier : String) : (p.unload carrier).Orderly := by
  have part : (p.unload carrier).loaded.Sublist p.loaded := List.filter_sublist
  exact ⟨h.distinct.sublist ((part.map _).map _), fun x hx => h.programs x ((part.map _).subset hx)⟩

theorem Orderly.perform (h : p.Orderly) (c : Command) : (p.perform c).1.Orderly := by
  cases loading : c.isLoading with
  | false => exact h.congr (p.repertoire_perform loading)
  | true =>
    cases c with
    | load g =>
      show (p.tryLoad g).Orderly
      rw [tryLoad]
      split
      · next loads => exact h.load loads
      · exact h
    | unload carrier => exact h.unload carrier
    | tick | click | apply | reset => cases loading

/-- Where carriers are distinct, every loaded graph is the only one of its carrier. -/
theorem sole_of_nodup (distinct : (p.graphs.map Graph.carrier).Nodup) {l : Loaded}
    (mem : l ∈ p.loaded) : p.Sole l.graph.carrier l := by
  rw [graphs, List.map_map] at distinct
  have nodup : (p.loaded.filter (·.graph.carrier == l.graph.carrier)).Nodup :=
    distinct.of_map.filter _
  -- What has the same carrier is the same graph, so the filter keeps this one and no other.
  have only : ∀ x, x ∈ p.loaded.filter (·.graph.carrier == l.graph.carrier) ↔ x = l := by
    intro x
    rw [List.mem_filter, beq_iff_eq]
    constructor
    · rintro ⟨hx, same⟩
      exact List.inj_on_of_nodup_map distinct hx mem same
    · rintro rfl
      exact ⟨mem, rfl⟩
  exact List.perm_singleton.1 ((List.perm_ext_iff_of_nodup nodup (List.nodup_singleton l)).2
    fun x => (only x).trans List.mem_singleton.symm)

theorem Orderly.sole (h : p.Orderly) {l : Loaded} (mem : l ∈ p.loaded) :
    p.Sole l.graph.carrier l :=
  sole_of_nodup h.distinct mem

/-- **Whatever a run reaches is orderly.** -/
theorem orderly_performAll (cs : List Command) : (({} : Playback).performAll cs).1.Orderly :=
  performAll_induction (fun _ c h => h.perform c) orderly_empty cs

/-! ### Loading graphs in a row -/

/-- Loads graphs one after the other. -/
def loadAll (p : Playback) : List Graph → Except Fault Playback
  | [] => .ok p
  | g :: gs => p.load g >>= fun p => p.loadAll gs

theorem load_eq_ok_iff {g : Graph} {p' : Playback} :
    p.load g = .ok p' ↔ g.carrier ∉ p.graphs.map Graph.carrier ∧
      ∃ new, Loaded.ofGraph g = .ok new ∧ p' = { p with loaded := p.loaded ++ [new] } := by
  have taken : p.loaded.any (·.graph.carrier == g.carrier) ↔
      g.carrier ∈ p.graphs.map Graph.carrier := by
    rw [graphs, List.map_map, List.mem_map, List.any_eq_true]
    simp only [beq_iff_eq, Function.comp_apply]
  rw [load, ← taken]
  split
  · next h =>
    constructor
    · rintro ⟨⟩
    · rintro ⟨free, -⟩
      exact absurd h free
  · next h =>
    cases Loaded.ofGraph g with
    | error fault =>
      constructor
      · rintro ⟨⟩
      · rintro ⟨-, new, ⟨⟩, -⟩
    | ok made =>
      constructor
      · rintro ⟨⟩
        exact ⟨h, made, rfl, rfl⟩
      · rintro ⟨-, new, same, rfl⟩
        cases same
        rfl

/-- **Graphs can be loaded in a row** exactly if their carriers are free and distinct and all of
them can be played; they are loaded behind the others. -/
theorem loadAll_eq_ok {gs : List Graph} {p' : Playback} :
    p.loadAll gs = .ok p' ↔
      (gs.map Graph.carrier).Nodup ∧ (∀ g ∈ gs, g.carrier ∉ p.graphs.map Graph.carrier) ∧
        ∃ new, List.Forall₂ (fun g l => Loaded.ofGraph g = .ok l) gs new ∧
          p' = { p with loaded := p.loaded ++ new } := by
  induction gs generalizing p with
  | nil =>
    constructor
    · rintro ⟨⟩
      exact ⟨List.nodup_nil, by rintro g ⟨⟩, [], .nil, by rw [List.append_nil]⟩
    · rintro ⟨-, -, new, ⟨⟩, rfl⟩
      rw [List.append_nil]
      rfl
  | cons g gs ih =>
    -- Behind the first graph its carrier is taken as well.
    have carriers : ∀ {l : Loaded}, Loaded.ofGraph g = .ok l → ∀ carrier,
        carrier ∈ ({ p with loaded := p.loaded ++ [l] } : Playback).graphs.map Graph.carrier ↔
          carrier ∈ p.graphs.map Graph.carrier ∨ carrier = g.carrier := by
      intro l made carrier
      rw [graphs, List.map_append, List.map_append, List.mem_append, ← graphs]
      simp [Loaded.graph_ofGraph made]
    rw [loadAll, bind_eq_ok, List.map_cons, List.nodup_cons, List.forall_mem_cons]
    constructor
    · rintro ⟨q, loads, rest⟩
      obtain ⟨free, l, made, rfl⟩ := load_eq_ok_iff.1 loads
      obtain ⟨distinct, away, new, all, rfl⟩ := ih.1 rest
      simp only [carriers made, not_or] at away
      refine ⟨⟨?_, distinct⟩, ⟨free, fun x hx => (away x hx).1⟩, l :: new, .cons made all, ?_⟩
      · intro taken
        obtain ⟨x, hx, same⟩ := List.mem_map.1 taken
        exact (away x hx).2 same
      · rw [List.append_assoc]
        rfl
    · -- Conversely the carriers of the rest are free, as none of them is that of the first.
      rintro ⟨⟨unused, distinct⟩, ⟨free, away⟩, new, all, rfl⟩
      obtain ⟨l, rest, made, others, rfl⟩ := List.forall₂_cons_left_iff.1 all
      refine ⟨_, load_eq_ok_iff.2 ⟨free, l, made, rfl⟩, ih.2 ⟨distinct, ?_, rest, others, ?_⟩⟩
      · intro x hx taken
        rcases (carriers made _).1 taken with taken | same
        · exact away x hx taken
        · exact unused (same ▸ List.mem_map_of_mem hx)
      · rw [List.append_assoc]
        rfl

/-- Graphs that can be played are loaded in a row if their carriers are distinct. -/
theorem exists_loadAll {gs : List Graph} (playable : ∀ g ∈ gs, g.Playable)
    (carriers : (gs.map Graph.carrier).Nodup) :
    ∃ p, ({} : Playback).loadAll gs = .ok p := by
  have made : ∃ new, List.Forall₂ (fun g l => Loaded.ofGraph g = .ok l) gs new := by
    clear carriers
    induction gs with
    | nil => exact ⟨[], .nil⟩
    | cons g gs ih =>
      obtain ⟨program, plays⟩ := playable g List.mem_cons_self
      obtain ⟨new, all⟩ := ih fun x hx => playable x (List.mem_cons_of_mem g hx)
      exact ⟨_ :: new, .cons (by rw [Loaded.ofGraph, plays]; rfl) all⟩
  obtain ⟨new, all⟩ := made
  exact ⟨_, loadAll_eq_ok.2 ⟨carriers, fun _ _ => List.not_mem_nil, new, all, rfl⟩⟩

theorem graphs_loadAll {gs : List Graph} (loads : ({} : Playback).loadAll gs = .ok p) :
    p.graphs = gs := by
  obtain ⟨-, -, new, all, rfl⟩ := loadAll_eq_ok.1 loads
  show new.map Loaded.graph = gs
  rw [← List.forall₂_eq_eq_eq, List.forall₂_map_left_iff]
  exact (all.imp fun g l made => Loaded.graph_ofGraph made).flip

end Playback

end SceneLogic
