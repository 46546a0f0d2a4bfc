import RepoGraph.Proofs.Enriching
import RepoGraph.Proofs.Twin.Staging

/-!
# Two runs that enrich what was staged

Two runs of the second stage that find the same output of the first one ask the same of the models,
get the same answers and stage the same.

Main statements: `CodeEnricher.keeps_enrichAll`, `DocumentEnricher.keeps_enrichAll`,
`Settings.twin_enriching`.
-/

namespace RepoGraph

open Build (Twin Keeps)
open Staging (SharesOutput)

/-- Two worlds have all in common that the second stage reads. -/
structure Enriching.Alike (config : BuildConfig) (w w' : World) : Prop where
  project : SameProject config.stagingPath config.project w w'
  read_eq : w'.disk.read w'.cwd (Staging.artifactPath config.stagingPath Reading.stage) =
    w.disk.read w.cwd (Staging.artifactPath config.stagingPath Reading.stage)

variable {related : List Event → List Event → Prop} {state : World → World → Prop}
  {outside outside' : Outside} {w w' : World}

section Alike

variable (halike : Outside.Alike related outside outside')

include halike

/-! ### Vectors -/

namespace Embedder

theorem keeps_sleep (seconds : Number) :
    Keeps (Tied related state) outside outside' (sleep seconds) := by
  rw [sleep]
  exact .ite (fun _ => Build.keeps_note halike _) fun _ => .pure _

theorem keeps_tryOnce (e : Embedder) (text : String) :
    Keeps (Tied related state) outside outside' (e.tryOnce text) := by
  intro w w' hw
  rw [tryOnce]
  cases e.request text with
  | none => exact Build.twin_fail hw
  | some request =>
    refine Build.twin_get (Build.twin_bind ((Build.keeps_attempt halike _).twin hw
      (fun _ v v' hv => ?_) fun _ _ hv => hv))
    refine Build.twin_read ?_
    rw [halike.embed _ _ request hw.1]
    exact (Keeps.bind (.take _ _) fun _ => .take _ _) v v' hv

theorem keeps_embedFrom (e : Embedder) (text : String) (attempt left : Nat) :
    Keeps (Tied related state) outside outside' (e.embedFrom text attempt left) := by
  induction left generalizing attempt with
  | zero => exact .pure _
  | succ left ih =>
    have hafter (f : Failure) :
        Keeps (Tied related state) outside outside' (e.afterFailure attempt left f) := by
      rw [afterFailure]
      exact .ite (fun _ => Build.keeps_log halike _ _ _) fun _ => (Keeps.take _ _).bind fun _ =>
        (Build.keeps_log halike _ _ _).bind fun _ => keeps_sleep halike _
    rw [embedFrom]
    refine (keeps_tryOnce halike e text).outcome.bind fun answer => ?_
    cases answer with
    | ok vector => exact .pure _
    | error f => exact (hafter f).bind fun _ => ih _

theorem keeps_embed (e : Embedder) (text : String) :
    Keeps (Tied related state) outside outside' (e.embed text) := by
  rw [embed]
  exact .ite (fun _ => .pure _) fun _ => keeps_embedFrom halike e text 1 _

end Embedder

/-! ### Code -/

namespace CodeEnricher

theorem keeps_askChat (c : CodeEnricher) (e : Entity) :
    Keeps (Tied related state) outside outside' (c.askChat e) := by
  intro w w' hw
  rw [askChat]
  refine Build.twin_get (Build.twin_bind ((Build.keeps_attempt halike _).twin hw
    (fun _ v v' hv => ?_) fun _ _ hv => hv))
  refine Build.twin_read ?_
  rw [halike.chat _ _ _ hw.1]
  exact (Keeps.bind (.take _ _) fun _ => .pure _) v v' hv

theorem keeps_describe (c : CodeEnricher) (e : Entity) :
    Keeps (Tied related state) outside outside' (c.describe e) := by
  rw [describe]
  refine .ite (fun _ => .pure _) fun _ => ?_
  refine (keeps_askChat halike c e).outcome.bind fun answer => ?_
  cases answer with
  | error f => exact (Build.keeps_log halike _ _ _).bind fun _ => .pure _
  | ok text =>
    refine .ite (fun _ => ?_) fun _ => .pure _
    exact (Build.keeps_log halike _ _ _).bind fun _ => .pure _

variable {c : CodeEnricher}
  (hembed : ∀ text, Keeps (Tied related state) outside outside' (c.embed text))

include hembed

theorem keeps_enrich (e : Entity) : Keeps (Tied related state) outside outside' (c.enrich e) := by
  rw [enrich]
  refine Keeps.bind (Keeps.outcome ?_) fun answer => ?_
  · exact (hembed _).bind fun _ => (keeps_describe halike c e).bind fun _ => .pure _
  · cases answer with
    | ok x => exact .pure _
    | error f => exact (Build.keeps_log halike _ _ _).bind fun _ => .pure _

theorem keeps_enrichBatches (total : Nat) (batches : List (List Entity × Nat)) :
    Keeps (Tied related state) outside outside' (c.enrichBatches total batches) := by
  induction batches with
  | nil => exact .pure _
  | cons batch rest ih =>
    obtain ⟨batch, done⟩ := batch
    rw [enrichBatches]
    refine (Keeps.mapM fun e _ => keeps_enrich halike hembed e).bind fun enriched => ?_
    refine (Build.keeps_log halike _ _ _).bind fun _ => ?_
    refine .ite (fun _ => ?_) fun _ => ih.bind fun _ => .pure _
    exact (Embedder.keeps_sleep halike _).bind fun _ => ih.bind fun _ => .pure _

theorem keeps_enrichAll (entities : List Entity) :
    Keeps (Tied related state) outside outside' (c.enrichAll entities) :=
  keeps_enrichBatches halike hembed _ _

end CodeEnricher

/-! ### Documents -/

namespace DocumentEnricher

variable {d : DocumentEnricher}
  (hembed : ∀ text, Keeps (Tied related state) outside outside' (d.embed text))

include hembed

theorem keeps_enrich (e : Entity) : Keeps (Tied related state) outside outside' (d.enrich e) := by
  rw [enrich]
  refine .ite (fun _ => .pure _) fun _ => ?_
  refine (hembed _).outcome.bind fun answer => ?_
  cases answer with
  | ok vector => exact .pure _
  | error f => exact (Build.keeps_log halike _ _ _).bind fun _ => .pure _

theorem keeps_enrichFrom (total count : Nat) (entities : List Entity) :
    Keeps (Tied related state) outside outside' (d.enrichFrom total count entities) := by
  induction entities generalizing count with
  | nil => exact .pure _
  | cons e rest ih =>
    rw [enrichFrom]
    refine (keeps_enrich halike hembed e).bind fun enriched => ?_
    refine .ite (fun _ => ?_) fun _ => (ih _).bind fun _ => .pure _
    exact (Build.keeps_log halike _ _ _).bind fun _ => (ih _).bind fun _ => .pure _

theorem keeps_enrichAll (entities : List Entity) :
    Keeps (Tied related state) outside outside' (d.enrichAll entities) :=
  keeps_enrichFrom halike hembed _ _ _

end DocumentEnricher

/-! ### The stage -/

namespace Enriching

variable {code : CodeEnricher} {documents : DocumentEnricher} {config : BuildConfig}
  {project : String}

/-- Two runs that find the same to enrich stage the same, unless the disk of one of them is at
fault. -/
theorem twin_run
    (hcode : ∀ text, Keeps (Tied related (Alike config)) outside outside' (code.embed text))
    (hdocuments : ∀ text,
      Keeps (Tied related (Alike config)) outside outside' (documents.embed text))
    (hw : Tied related (Alike config) w w') :
    Twin (run code documents config) (run code documents config) Failure.IsDisk
      (fun _ => Tied related (SharesOutput config.stagingPath config.project stage))
      (Tied related (SameProject config.stagingPath config.project)) outside outside' w w' := by
  have hfailed (v v' : World) (hv : Tied related (Alike config) v v') :
      Tied related (SameProject config.stagingPath config.project) v v' := ⟨hv.1, hv.2.project⟩
  rw [run]
  refine Build.twin_bind ((Build.keeps_log halike _ _ _).twin hw (fun _ w₁ w₁' hw₁ => ?_) hfailed)
  refine Build.twin_bind ((Build.keeps_now halike).twin hw₁ (fun start w₂ w₂' hw₂ => ?_) hfailed)
  refine Build.twin_bind ((Staging.keeps_read halike fun _ _ hv => hv.read_eq).twin hw₂
    (fun staged w₃ w₃' hw₃ => ?_) hfailed)
  refine Build.twin_bind ((Keeps.take _ _).twin hw₃ (fun input w₄ w₄' hw₄ => ?_) hfailed)
  refine Build.twin_bind ((Build.keeps_log halike _ _ _).twin hw₄ (fun _ w₅ w₅' hw₅ => ?_) hfailed)
  refine Build.twin_bind ((CodeEnricher.keeps_enrichAll halike hcode _).twin hw₅
    (fun codeEnriched w₆ w₆' hw₆ => ?_) hfailed)
  refine Build.twin_bind ((DocumentEnricher.keeps_enrichAll halike hdocuments _).twin hw₆
    (fun documentsEnriched w₇ w₇' hw₇ => ?_) hfailed)
  refine Build.twin_bind ((Build.keeps_stamp halike).twin hw₇ (fun stamp w₈ w₈' hw₈ => ?_) hfailed)
  refine Build.twin_bind ((Staging.twin_write halike (hfailed _ _ hw₈) _).mono (fun _ h => h)
    (fun _ w₉ w₉' hw₉ => ?_) fun _ _ h => h)
  exact (Keeps.bind (Build.keeps_now halike) fun finish =>
    (Build.keeps_log halike _ _ _).bind fun _ => .pure _).twin hw₉ (fun _ _ _ h => h)
      fun _ _ h => ⟨h.1, h.2.project⟩

end Enriching

namespace Settings

theorem keeps_connectModel (s : Settings) :
    Keeps (Tied related state) outside outside' s.connectModel := by
  rw [connectModel]
  exact .ite (fun _ => Build.keeps_attempt halike _) fun _ => .fail _

theorem keeps_embedder (s : Settings) : Keeps (Tied related state) outside outside' s.embedder := by
  rw [embedder]
  refine .ite (fun _ => (keeps_connectModel halike s).bind fun _ => .pure _) fun _ => ?_
  exact .ite (fun _ => .pure _) fun _ => .fail _

theorem keeps_chat (s : Settings) : Keeps (Tied related state) outside outside' s.chat := by
  rw [chat]
  refine .ite (fun _ => (keeps_connectModel halike s).bind fun _ => .pure _) fun _ => ?_
  exact (Build.keeps_log halike _ _ _).bind fun _ => .pure _

theorem twin_enriching (s : Settings) {config : BuildConfig}
    (hw : Tied related (Enriching.Alike config) w w') :
    Twin (s.enriching config) (s.enriching config) Failure.IsDisk
      (fun _ => Tied related (SharesOutput config.stagingPath config.project Enriching.stage))
      (Tied related (SameProject config.stagingPath config.project)) outside outside' w w' := by
  have hfailed (v v' : World) (hv : Tied related (Enriching.Alike config) v v') :
      Tied related (SameProject config.stagingPath config.project) v v' := ⟨hv.1, hv.2.project⟩
  have hembed (e : Embedder) (text : String) :
      Keeps (Tied related (Enriching.Alike config)) outside outside' (e.embed text) :=
    Embedder.keeps_embed halike e text
  rw [enriching]
  refine Build.twin_bind ((keeps_embedder halike s).twin hw (fun e w₁ w₁' hw₁ => ?_) hfailed)
  refine Build.twin_bind ((keeps_chat halike s).twin hw₁ (fun hasChat w₂ w₂' hw₂ => ?_) hfailed)
  exact Enriching.twin_run halike (hembed e) (hembed e) hw₂

end Settings

end Alike

end RepoGraph
