import Mathlib.Data.List.DropRight
import RepoGraph.Proofs.Record
import RepoGraph.Settings

/-!
# Slugs are a normal form

`Project.IsSlug` says what a slug is: lower case letters, digits, hyphens and underscores, with no
hyphen at an end or beside another one.  `Project.slug` makes a slug of every text and leaves slugs
alone, so its fixed points are the slugs.

The settings name projects by slugs only.  A client's name is resolved to one of them, or refused if
it has a slug that is none of them.

Main statements: `Project.isSlug_slug`, `Project.slug_eq_self_iff`,
`Settings.namesProjects_of_read`.
-/

namespace RepoGraph

/-! ### Dropping characters at the ends -/

namespace Text

variable {p : Char → Bool} {cs : List Char}

theorem dropRightWhile_eq (p : Char → Bool) (cs : List Char) :
    dropRightWhile p cs = cs.rdropWhile p := by
  induction cs with
  | nil => rfl
  | cons c cs ih =>
    rw [dropRightWhile, ih, List.rdropWhile, List.rdropWhile, List.reverse_cons,
      List.dropWhile_append]
    cases hrest : cs.reverse.dropWhile p with
    | nil => cases hc : p c <;> simp [hc]
    | cons d more =>
      simp

theorem mem_of_mem_trimChars {c : Char} (h : c ∈ trimChars p cs) : c ∈ cs := by
  rw [trimChars, dropRightWhile_eq] at h
  exact (List.dropWhile_sublist p).subset ((List.rdropWhile_prefix p _).subset h)

/-- What is left of a text is a stretch of it. -/
theorem trimChars_isInfix (p : Char → Bool) (cs : List Char) : trimChars p cs <:+: cs := by
  rw [trimChars, dropRightWhile_eq]
  exact (List.rdropWhile_prefix p _).isInfix.trans (List.dropWhile_suffix p).isInfix

theorem getLast?_trimChars (p : Char → Bool) (cs : List Char) :
    ∀ c, (trimChars p cs).getLast? = some c → p c = false := by
  intro c hc
  rw [trimChars, dropRightWhile_eq] at hc
  have hne : (cs.dropWhile p).rdropWhile p ≠ [] := by
    rintro hnil
    rw [hnil] at hc
    cases hc
  rw [List.getLast?_eq_getLast_of_ne_nil hne, Option.some.injEq] at hc
  exact Bool.eq_false_iff.2 (hc ▸ List.rdropWhile_last_not p _ hne)

theorem head?_trimChars (p : Char → Bool) (cs : List Char) :
    ∀ c, (trimChars p cs).head? = some c → p c = false := by
  intro c hc
  rw [trimChars] at hc
  cases htrim : dropRightWhile p (cs.dropWhile p) with
  | nil => rw [htrim] at hc; cases hc
  | cons d more =>
    rw [htrim, List.head?_cons, Option.some.injEq] at hc
    obtain ⟨tail, htail⟩ := head_dropRightWhile htrim
    have hnot := List.head?_dropWhile_not p cs
    rw [htail] at hnot
    subst hc
    simpa using hnot

/-- A text is left alone that neither begins nor ends with a character to be dropped. -/
theorem trimChars_eq_self (hhead : ∀ c, cs.head? = some c → p c = false)
    (hlast : ∀ c, cs.getLast? = some c → p c = false) : trimChars p cs = cs := by
  have hfront : cs.dropWhile p = cs := by
    cases cs with
    | nil => rfl
    | cons c cs => exact List.dropWhile_cons_of_neg (by simp [hhead c rfl])
  rw [trimChars, hfront, dropRightWhile_eq, List.rdropWhile_eq_self_iff]
  intro hne
  simp [hlast _ (List.getLast?_eq_getLast_of_ne_nil hne)]

/-! ### Lower case -/

/-- Whether a character is its own lower-case form wherever it stands. -/
def IsLower (c : Char) : Prop := c.toNat < 0x80 ∧ c.toLower = c

theorem lowerFrom_eq_self (before : List Char) (h : ∀ c ∈ cs, IsLower c) :
    lowerFrom before cs = cs := by
  induction cs generalizing before with
  | nil => rfl
  | cons c cs ih =>
    obtain ⟨⟨hsmall, hlower⟩, hrest⟩ := List.forall_mem_cons.1 h
    have hsigma : (c.toNat == 0x3A3) = false := by
      rw [beq_eq_false_iff_ne]
      omega
    simp [lowerFrom, hsigma, lowerChar, hsmall, hlower, ih (c :: before) hrest]

end Text

/-! ### Slugs -/

namespace Project

variable {c d : Char} {cs : List Char} {s : String}

/-- Whether a slug may hold a character. -/
def IsSlugChar (c : Char) : Prop :=
  ('a' ≤ c ∧ c ≤ 'z') ∨ ('0' ≤ c ∧ c ≤ '9') ∨ c = '_' ∨ c = '-'

/-- Whether a text is a slug. -/
structure IsSlug (s : String) : Prop where
  chars : ∀ c ∈ s.toList, IsSlugChar c
  head : s.toList.head? ≠ some '-'
  last : s.toList.getLast? ≠ some '-'
  apart : ¬ ['-', '-'] <:+: s.toList

instance : DecidablePred IsSlugChar := fun _ => inferInstanceAs (Decidable (_ ∨ _))

theorem isSlugChar_iff : IsSlugChar c ↔ isSlugLetter c ∨ c = '-' := by
  simp [IsSlugChar, isSlugLetter, or_assoc]

theorem isSlugChar_hyphenate (c : Char) : IsSlugChar (hyphenate c) := by
  rw [isSlugChar_iff, hyphenate]
  split
  · rename_i hletter
    exact .inl hletter
  · exact .inr rfl

theorem hyphenate_of_isSlugChar (h : IsSlugChar c) : hyphenate c = c := by
  rw [hyphenate]
  rcases isSlugChar_iff.1 h with hletter | rfl
  · rw [if_pos hletter]
  · rfl

theorem IsSlugChar.range (h : IsSlugChar c) : 0x2D ≤ c.toNat ∧ c.toNat < 0x80 := by
  have hle {a b : Char} (h : a ≤ b) : a.toNat ≤ b.toNat := h
  rcases h with ⟨hlow, hhigh⟩ | ⟨hlow, hhigh⟩ | rfl | rfl
  · have := hle hlow
    have := hle hhigh
    simp only [Char.reduceToNat] at *
    omega
  · have := hle hlow
    have := hle hhigh
    simp only [Char.reduceToNat] at *
    omega
  · decide
  · decide

theorem IsSlugChar.isBlank_eq (h : IsSlugChar c) : Text.isBlank c = false := by
  obtain ⟨hlow, hhigh⟩ := h.range
  simp only [Text.isBlank, Bool.or_eq_false_iff, Bool.and_eq_false_iff, decide_eq_false_iff_not,
    beq_eq_false_iff_ne]
  omega

theorem IsSlugChar.isLower (h : IsSlugChar c) : Text.IsLower c := by
  refine ⟨h.range.2, ?_⟩
  refine dif_neg ?_
  rintro ⟨hlow, hhigh⟩
  have hlow' : 0x41 ≤ c.toNat := hlow
  have hhigh' : c.toNat ≤ 0x5A := hhigh
  rcases h with ⟨h, -⟩ | ⟨-, h⟩ | rfl | rfl
  · have h' : 0x61 ≤ c.toNat := h
    omega
  · have h' : c.toNat ≤ 0x39 := h
    omega
  · exact absurd hhigh' (by decide)
  · exact absurd hlow' (by decide)

/-! ### Runs of hyphens -/

/-- A character is put before the rest unless it would double a hyphen. -/
theorem collapseHyphens_cons (c : Char) (cs : List Char) :
    collapseHyphens (c :: cs) =
      if c = '-' ∧ (collapseHyphens cs).head? = some '-' then collapseHyphens cs
      else c :: collapseHyphens cs := by
  rw [collapseHyphens]
  split
  · rename_i more heq
    by_cases hc : c = '-' <;> simp [heq, hc]
  · rename_i other hother
    cases hrest : collapseHyphens cs with
    | nil => simp
    | cons d more =>
      have hd : d ≠ '-' := by
        rintro rfl
        exact hother more hrest
      simp [hd]

theorem mem_of_mem_collapseHyphens (h : c ∈ collapseHyphens cs) : c ∈ cs := by
  induction cs with
  | nil => exact h
  | cons d cs ih =>
    rw [collapseHyphens_cons] at h
    split at h
    · exact List.mem_cons_of_mem d (ih h)
    · rcases List.mem_cons.1 h with rfl | hrest
      · exact List.mem_cons_self
      · exact List.mem_cons_of_mem d (ih hrest)

theorem not_isInfix_collapseHyphens (cs : List Char) : ¬ ['-', '-'] <:+: collapseHyphens cs := by
  induction cs with
  | nil => simp [collapseHyphens]
  | cons c cs ih =>
    rw [collapseHyphens_cons]
    split
    · exact ih
    · rename_i hnot
      rw [List.infix_cons_iff, not_or]
      refine ⟨fun hprefix => hnot ?_, ih⟩
      obtain ⟨rest, hrest⟩ := hprefix
      rw [List.cons_append, List.cons.injEq] at hrest
      exact ⟨hrest.1.symm, by rw [← hrest.2]; rfl⟩

/-- A text without doubled hyphens is left alone. -/
theorem collapseHyphens_eq_self (h : ¬ ['-', '-'] <:+: cs) : collapseHyphens cs = cs := by
  induction cs with
  | nil => rfl
  | cons c cs ih =>
    rw [List.infix_cons_iff, not_or] at h
    rw [collapseHyphens_cons, ih h.2, if_neg]
    rintro ⟨rfl, hhead⟩
    obtain ⟨rest, rfl⟩ := List.head?_eq_some_iff.1 hhead
    exact h.1 ⟨rest, rfl⟩

/-! ### Slugs as a normal form -/

theorem toList_slug (s : String) :
    (slug s).toList = Text.trimChars (· == '-')
      (collapseHyphens ((Text.lower (Text.strip s)).toList.map hyphenate)) := by
  rw [slug, String.toList_ofList]

/-- Whatever the text is, its slug is a slug. -/
theorem isSlug_slug (s : String) : IsSlug (slug s) where
  chars c hc := by
    rw [toList_slug] at hc
    obtain ⟨d, -, rfl⟩ :=
      List.mem_map.1 (mem_of_mem_collapseHyphens (Text.mem_of_mem_trimChars hc))
    exact isSlugChar_hyphenate d
  head h := by
    rw [toList_slug] at h
    cases Text.head?_trimChars _ _ _ h
  last h := by
    rw [toList_slug] at h
    cases Text.getLast?_trimChars _ _ _ h
  apart h := by
    rw [toList_slug] at h
    exact not_isInfix_collapseHyphens _ (h.trans (Text.trimChars_isInfix _ _))

/-- A slug has no blanks at its ends, and is in lower case. -/
theorem IsSlug.toList_lower_strip (h : IsSlug s) :
    (Text.lower (Text.strip s)).toList = s.toList := by
  have hstrip : Text.trimChars Text.isBlank s.toList = s.toList :=
    Text.trimChars_eq_self (fun c hc => (h.chars c (List.mem_of_mem_head? hc)).isBlank_eq)
      fun c hc => (h.chars c (List.mem_of_mem_getLast? hc)).isBlank_eq
  rw [Text.lower, Text.strip, Text.trim, String.toList_ofList, String.toList_ofList, hstrip,
    Text.lowerFrom_eq_self [] fun c hc => (h.chars c hc).isLower]

/-- A slug is left alone. -/
theorem IsSlug.slug_eq (h : IsSlug s) : slug s = s := by
  have hmap : s.toList.map hyphenate = s.toList :=
    (List.map_congr_left fun c hc => hyphenate_of_isSlugChar (h.chars c hc)).trans (List.map_id _)
  have htrim : Text.trimChars (· == '-') s.toList = s.toList := by
    refine Text.trimChars_eq_self (fun c hc => ?_) fun c hc => ?_
    · rw [beq_eq_false_iff_ne]
      rintro rfl
      exact h.head hc
    · rw [beq_eq_false_iff_ne]
      rintro rfl
      exact h.last hc
  rw [← String.ofList_toList (s := slug s), toList_slug, h.toList_lower_strip, hmap,
    collapseHyphens_eq_self h.apart, htrim, String.ofList_toList]

/-- The texts that are their own slugs are the slugs. -/
theorem slug_eq_self_iff : slug s = s ↔ IsSlug s :=
  ⟨fun h => h ▸ isSlug_slug s, IsSlug.slug_eq⟩

theorem slug_slug (s : String) : slug (slug s) = slug s := (isSlug_slug s).slug_eq

end Project

/-! ### Projects of the settings -/

namespace Settings

open Project (IsSlug slug)

-- unfolding a slug would compute with the tables of letter case
attribute [local irreducible] Project.slug

variable {s : Settings} {env : Environment} {data : Yaml.Value}

/-- The slug of the name that a client gives; without a name it is empty. -/
def requestedSlug (name : Option String) : String := (name.map slug).getD ""

theorem resolve_eq (s : Settings) (name : Option String) :
    s.resolve name =
      if requestedSlug name = "" then .ok s.defaultProject
      else if requestedSlug name ∈ s.projects then .ok (requestedSlug name)
      else .error ⟨name.getD ""⟩ := by
  cases name with
  | none => rfl
  | some raw =>
    simp only [resolve, requestedSlug, Option.map_some, Option.getD_some, beq_iff_eq,
      List.contains_iff_mem]
    congr

/-- Whether the settings name projects by slugs, and a client's name by one of them. -/
structure NamesProjects (s : Settings) : Prop where
  default_mem : s.defaultProject ∈ s.projects
  slugs : ∀ project ∈ s.projects, project ≠ "" ∧ IsSlug project ∧ slug project = project
  resolves : ∀ name project, s.resolve name = .ok project →
    project ∈ s.projects ∧ s.resolve (some project) = .ok project
  keeps : ∀ name, requestedSlug name ≠ "" → requestedSlug name ∈ s.projects →
    s.resolve name = .ok (requestedSlug name)
  refuses : ∀ name fault, s.resolve name = .error fault ↔
    requestedSlug name ≠ "" ∧ requestedSlug name ∉ s.projects ∧ fault = ⟨name.getD ""⟩

theorem isSlug_defaultOf (name : String) : defaultOf name ≠ "" ∧ IsSlug (defaultOf name) := by
  rw [defaultOf]
  split
  · have hchars : "default".toList = ['d', 'e', 'f', 'a', 'u', 'l', 't'] := rfl
    have hall : "default".toList.all fun c => decide (Project.IsSlugChar c) := rfl
    exact ⟨by decide, fun c hc => of_decide_eq_true (List.all_eq_true.1 hall c hc),
      by rw [hchars]; decide, by rw [hchars]; decide, by rw [hchars]; decide⟩
  · rename_i hfilled
    exact ⟨by simpa using hfilled, Project.isSlug_slug name⟩

/-- What a settings file names are slugs, among them the empty one. -/
theorem isSlug_of_namedProjects {value : Option Yaml.Value} {named : List String}
    (h : namedProjects value = .ok named) : ∀ project ∈ named, IsSlug project := by
  rw [namedProjects.eq_def] at h
  split at h
  · rename_i items
    induction items generalizing named with
    | nil => cases h; simp
    | cons item rest ih =>
      rw [List.mapM_cons] at h
      obtain ⟨project, hproject, h⟩ := exists_of_bind h
      obtain ⟨more, hmore, h⟩ := exists_of_bind h
      obtain ⟨shown, -, rfl⟩ := exists_of_map hproject
      cases h
      exact List.forall_mem_cons.2 ⟨Project.isSlug_slug shown, ih hmore⟩
  · cases h
    simp

theorem NamesProjects.of_projectList {name : String} {named : List String}
    (hnamed : ∀ project ∈ named, IsSlug project) (hdefault : s.defaultProject = defaultOf name)
    (hprojects : s.projects = projectList named (defaultOf name)) : s.NamesProjects := by
  have hslugs : ∀ project ∈ s.projects, project ≠ "" ∧ IsSlug project := by
    intro project hproject
    rw [hprojects, projectList, Text.mem_distinct, List.mem_cons, List.mem_filter] at hproject
    rcases hproject with hproject | ⟨hmem, hfilled⟩
    · rw [hproject]
      exact isSlug_defaultOf name
    · exact ⟨by simpa using hfilled, hnamed project hmem⟩
  have hmem : s.defaultProject ∈ s.projects := by
    rw [hprojects, projectList, Text.mem_distinct, hdefault]
    exact List.mem_cons_self
  -- a project is a slug, so that it is asked for by its own name
  have hself : ∀ project ∈ s.projects, s.resolve (some project) = .ok project := by
    intro project hproject
    obtain ⟨hfilled, hslug⟩ := hslugs project hproject
    have hrequested : requestedSlug (some project) = project := hslug.slug_eq
    rw [resolve_eq, hrequested, if_neg hfilled, if_pos hproject]
  refine ⟨hmem, fun project hproject => ?_, fun name project hresolve => ?_,
    fun name hfilled hin => ?_, fun name fault => ?_⟩
  · obtain ⟨hfilled, hslug⟩ := hslugs project hproject
    exact ⟨hfilled, hslug, hslug.slug_eq⟩
  · have hproject : project ∈ s.projects := by
      rw [resolve_eq] at hresolve
      split at hresolve
      · cases hresolve
        exact hmem
      · split at hresolve
        · cases hresolve
          assumption
        · cases hresolve
    exact ⟨hproject, hself project hproject⟩
  · rw [resolve_eq, if_neg hfilled, if_pos hin]
  · rw [resolve_eq]
    split
    · rename_i hempty
      exact ⟨fun h => (nomatch h), fun h => absurd hempty h.1⟩
    · rename_i hfilled
      split
      · rename_i hin
        exact ⟨fun h => (nomatch h), fun h => absurd hin h.2.1⟩
      · rename_i hout
        exact ⟨fun h => ⟨hfilled, hout, (Except.error.inj h).symm⟩, fun h => by rw [h.2.2]⟩

/-- The projects of the settings that are read are made of the names in the settings file and of the
default project. -/
theorem exists_of_read (h : read env data = .ok s) : ∃ value name named,
    namedProjects value = .ok named ∧ s.defaultProject = defaultOf name ∧
      s.projects = projectList named (defaultOf name) := by
  rw [read] at h
  obtain ⟨top, -, h⟩ := exists_of_bind h
  -- the settings before the default project do not matter here
  iterate 16 obtain ⟨_, -, h⟩ := exists_of_bind h
  obtain ⟨name, -, h⟩ := exists_of_bind h
  obtain ⟨named, hnamed, h⟩ := exists_of_bind h
  cases h
  exact ⟨_, name, named, hnamed, rfl, rfl⟩

/-- The slug of every text is a slug, what is its own slug is a slug, and settings that are read
name projects by slugs. -/
theorem namesProjects_of_read (text : String) (h : read env data = .ok s) :
    IsSlug (slug text) ∧ slug (slug text) = slug text ∧ (slug text = text ↔ IsSlug text) ∧
      s.NamesProjects := by
  obtain ⟨value, name, named, hnamed, hdefault, hprojects⟩ := exists_of_read h
  exact ⟨Project.isSlug_slug text, Project.slug_slug text, Project.slug_eq_self_iff,
    .of_projectList (isSlug_of_namedProjects hnamed) hdefault hprojects⟩

/-- Settings from a variable and a file, both of which name projects. -/
theorem namesProjects_of_variable_and_file : ∃ s,
    read [("DEFAULT_PROJECT", " My Repo! ")]
      (.map [(.text "projects", .list [.scalar (.text "--"), .scalar (.text "Ärger")])]) = .ok s ∧
    IsSlug (slug "A--b_") ∧ s.NamesProjects := by
  refine ⟨_, rfl, ?_⟩
  have hread : read [("DEFAULT_PROJECT", " My Repo! ")]
      (.map [(.text "projects", .list [.scalar (.text "--"), .scalar (.text "Ärger")])]) = .ok _ :=
    rfl
  obtain ⟨hslug, -, -, hnames⟩ := namesProjects_of_read "A--b_" hread
  exact ⟨hslug, hnames⟩

end Settings

end RepoGraph
