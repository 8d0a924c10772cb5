import Kindred.Cli.Run
import Kindred.Proofs.Roll

/-!
# Reviewed content

A review of content that finds no error has read the same records as loading the content does, file
by file and record by record. The review goes on after an error and loading ends at the first one,
so the two are compared along the records of a review that is valid in the end.

- `Review.Notes`: a review has noted the names that some content has.
- `Follows`: reviewing one record agrees with adding it to the records read before.
- `Content.strays`: the races whose category does not exist.
- `validated_content_loads`: content that passes the command can be loaded.
-/

namespace Kindred

open Kindred.Record

/-! ### Blocks of reviews and loads -/

section Block

variable {ε τ α β : Type} {x : EStateM ε τ α} {f : α → EStateM ε τ β} {v v' : τ} {b : β}

/-- A block without a source gives a value exactly if both of its parts do. -/
theorem then_ok_iff : (x >>= f) v = .ok b v' ↔ ∃ a v₁, x v = .ok a v₁ ∧ f a v₁ = .ok b v' := by
  show EStateM.bind x f v = .ok b v' ↔ _
  rw [EStateM.bind]
  constructor
  · intro h
    cases hx : x v with
    | ok a v₁ => rw [hx] at h; exact ⟨a, v₁, rfl, h⟩
    | error e v₁ => rw [hx] at h; cases h
  · rintro ⟨a, v₁, hx, hf⟩
    rw [hx]
    exact hf

end Block

/-! ### Findings -/

/-- The race and the category that a warning about an unknown category names. -/
def Finding.stray? : Finding → Option (String × String)
  | .categoryUnknown race category => some (race, category)
  | _ => none

/-- Findings none of which is about an unknown category. -/
def Local (fs : List Finding) : Prop := ∀ f ∈ fs, f.stray? = none

theorem Local.nil : Local [] := nofun

theorem Local.append {fs gs : List Finding} (hfs : Local fs) (hgs : Local gs) :
    Local (fs ++ gs) := by
  intro f hf
  cases List.mem_append.mp hf with
  | inl hf => exact hfs f hf
  | inr hf => exact hgs f hf

theorem Local.map {β : Type} {g : β → Finding} (hg : ∀ b, (g b).stray? = none) (bs : List β) :
    Local (bs.map g) := by
  intro f hf
  obtain ⟨b, -, rfl⟩ := List.mem_map.mp hf
  exact hg b

/-- Rows that are reported leave findings of one kind only. -/
theorem reversedFindings_local {finding : Nat → String → String → Finding}
    (hfinding : ∀ row max min, (finding row max min).stray? = none) {bounds : List (Int × Int)}
    {fs : List Finding} (h : reversedFindings finding bounds = .ok fs) : Local fs := by
  unfold reversedFindings at h
  generalize bounds.zipIdx.filter _ = rows at h
  induction rows generalizing fs with
  | nil => cases h; exact Local.nil
  | cons row rows ih =>
    rw [List.mapM_cons] at h
    obtain ⟨f, hf, h⟩ := except_bind_ok_iff.mp h
    obtain ⟨rest, hrest, h⟩ := except_bind_ok_iff.mp h
    cases h
    obtain ⟨max, -, hf⟩ := except_bind_ok_iff.mp hf
    obtain ⟨min, -, hf⟩ := except_bind_ok_iff.mp hf
    cases hf
    exact List.forall_mem_cons.mpr ⟨hfinding _ _ _, ih hrest⟩

/-- A formula that is tried leaves findings about that formula only. -/
theorem formulaFindings_local {label formula : String} {d : Dialect} {fs : List Finding}
    (h : formulaFindings label d formula = .ok fs) : Local fs := by
  obtain ⟨verdict, -, h⟩ := except_bind_ok_iff.mp h
  cases verdict with
  | none => cases h; exact Local.nil
  | some why =>
    cases h
    intro f hf
    obtain rfl := List.mem_singleton.mp hf
    rfl

theorem optionalFindings_local {label : String} {d : Dialect} {formula : Option String}
    {fs : List Finding} (h : optionalFindings label d formula = .ok fs) : Local fs := by
  unfold optionalFindings at h
  split at h
  · cases h; exact Local.nil
  · cases h; exact Local.nil
  · exact formulaFindings_local h

theorem mappingFindings_local {label : String} {m : AgeMapping} {fs : List Finding}
    (h : mappingFindings label m = .ok fs) : Local fs := by
  obtain ⟨forward, hforward, h⟩ := except_bind_ok_iff.mp h
  obtain ⟨back, hback, h⟩ := except_bind_ok_iff.mp h
  obtain ⟨rows, hrows, h⟩ := except_bind_ok_iff.mp h
  cases h
  exact ((optionalFindings_local hforward).append (optionalFindings_local hback)).append
    (reversedFindings_local (fun _ _ _ => rfl) hrows)

/-- Four formulas of the rules for siblings are tried, and the text about genders is looked at. -/
theorem siblingFindings_ok {label : String} {r : SiblingRules} {fs : List Finding}
    (h : siblingFindings label r = .ok fs) : ∃ tried,
      fs = tried ++ (if isGenderForm r.gender then [] else
        [.genderUnknown (label ++ ".genderFormula") r.gender]) ∧
      ∀ f ∈ tried, ∃ place d formula found, formulaFindings place d formula = .ok found ∧
        f ∈ found := by
  obtain ⟨litters, hlitters, h⟩ := except_bind_ok_iff.mp h
  obtain ⟨size, hsize, h⟩ := except_bind_ok_iff.mp h
  obtain ⟨older, holder, h⟩ := except_bind_ok_iff.mp h
  obtain ⟨younger, hyounger, h⟩ := except_bind_ok_iff.mp h
  cases h
  refine ⟨_, rfl, ?_⟩
  simp only [List.forall_mem_append]
  exact ⟨⟨⟨fun f hf => ⟨_, _, _, _, hlitters, hf⟩, fun f hf => ⟨_, _, _, _, hsize, hf⟩⟩,
    fun f hf => ⟨_, _, _, _, holder, hf⟩⟩, fun f hf => ⟨_, _, _, _, hyounger, hf⟩⟩

theorem siblingFindings_local {label : String} {r : SiblingRules} {fs : List Finding}
    (h : siblingFindings label r = .ok fs) : Local fs := by
  obtain ⟨tried, rfl, htried⟩ := siblingFindings_ok h
  refine Local.append (fun f hf => ?_) ?_
  · obtain ⟨_, _, _, _, hfound, hf⟩ := htried f hf
    exact formulaFindings_local hfound f hf
  · split
    · exact Local.nil
    · intro f hf
      obtain rfl := List.mem_singleton.mp hf
      rfl

theorem parentFindings_local {label : String} {r : ParentRules} {fs : List Finding}
    (h : parentFindings label r = .ok fs) : Local fs := by
  obtain ⟨formula, hformula, h⟩ := except_bind_ok_iff.mp h
  obtain ⟨rows, hrows, h⟩ := except_bind_ok_iff.mp h
  cases h
  exact (formulaFindings_local hformula).append (reversedFindings_local (fun _ _ _ => rfl) hrows)

/-- The rules of a race or a category are tried part by part. -/
theorem customsFindings_eq (label : String) (c : Customs) : customsFindings label c = do
    let siblings ← c.siblings.elim (pure []) (siblingFindings (label ++ ".siblingFormula"))
    let parents ← c.parents.elim (pure []) (parentFindings (label ++ ".parentFormula"))
    let age ← optionalFindings (label ++ ".parentAgeFormula") .parentAge c.parentAge
    return siblings ++ parents ++ age := by
  obtain ⟨siblings, parents, age⟩ := c
  cases siblings <;> cases parents <;> rfl

/-- The rules of a race or a category leave no finding about an unknown category. -/
theorem customsFindings_local {label : String} {c : Customs} {fs : List Finding}
    (h : customsFindings label c = .ok fs) : Local fs := by
  rw [customsFindings_eq] at h
  obtain ⟨siblings, hsiblings, h⟩ := except_bind_ok_iff.mp h
  obtain ⟨parents, hparents, h⟩ := except_bind_ok_iff.mp h
  obtain ⟨age, hage, h⟩ := except_bind_ok_iff.mp h
  cases h
  refine (Local.append ?_ ?_).append (optionalFindings_local hage)
  · cases hc : c.siblings with
    | none => rw [hc] at hsiblings; cases hsiblings; exact Local.nil
    | some r => rw [hc] at hsiblings; exact siblingFindings_local hsiblings
  · cases hc : c.parents with
    | none => rw [hc] at hparents; cases hparents; exact Local.nil
    | some r => rw [hc] at hparents; exact parentFindings_local hparents

/-! ### One record -/

namespace Review

/-- A review to which findings are added was valid before if it is valid then. -/
theorem isValid_of_append {v v' : Review} {more : List Finding}
    (hmore : v'.findings = v.findings ++ more) (hvalid : v'.isValid = true) :
    v.isValid = true := by
  unfold isValid at hvalid
  rw [hmore, List.all_append, Bool.and_eq_true] at hvalid
  exact hvalid.1

/-- A review with a grave finding is not valid. -/
theorem not_isValid_of_mem {v : Review} {f : Finding} (hf : f ∈ v.findings)
    (hgrave : f.gravity = .error) : v.isValid ≠ true := by
  intro hvalid
  have hall := List.all_eq_true.mp hvalid f hf
  rw [hgrave] at hall
  exact absurd hall (by decide)

end Review

/-- Nothing is found under a name exactly if it is not among the names. -/
theorem lookup_eq_none_iff_notMem {β : Type} {name : String} {es : List (String × β)} :
    es.lookup name = none ↔ name ∉ es.map (·.1) := by
  rw [List.lookup_eq_none_iff, List.mem_map]
  constructor
  · rintro hnone ⟨e, he, rfl⟩
    exact absurd rfl (bne_iff_ne.mp (hnone e he))
  · intro hnone e he
    exact bne_iff_ne.mpr fun hname => hnone ⟨e, he, hname.symm⟩

/-- A name under which there is nothing gets an entry at the end. -/
theorem setEntry_of_lookup {β : Type} {name : String} {b : β} {es : List (String × β)}
    (h : es.lookup name = none) : setEntry name b es = es ++ [(name, b)] := by
  induction es with
  | nil => rfl
  | cons e es ih =>
    obtain ⟨n, old⟩ := e
    rw [List.lookup_cons] at h
    cases hn : name == n with
    | true => rw [hn] at h; cases h
    | false =>
      rw [hn] at h
      have hne : (n == name) = false := by rw [BEq.comm]; exact hn
      show (if (n == name) = true then (n, b) :: es else (n, old) :: setEntry name b es) = _
      rw [hne, if_neg Bool.false_ne_true, ih h]
      rfl

namespace Reviewing

/-- A record that is read leaves remarks on the rows that were left out. -/
theorem validated_some {α : Type} {reg : Register α} {path : Path} {d : Data} {v v' : Review}
    {a : α} (h : validated reg path d v = .ok (some a) v') :
    ∃ remarks, validate reg.model false reg.check d = (remarks, .ok a) ∧
      v' = v.find (remarks.map .rowIgnored) := by
  unfold validated at h
  generalize validate reg.model false reg.check d = read at h ⊢
  obtain ⟨remarks, outcome⟩ := read
  obtain ⟨u, v₁, hfind, h⟩ := then_ok_iff.mp h
  cases hfind
  cases outcome with
  | ok b => cases h; exact ⟨remarks, rfl, rfl⟩
  | error why =>
    obtain ⟨u, v₂, -, h⟩ := then_ok_iff.mp h
    cases h

/-- A record that is rejected makes the content invalid. -/
theorem validated_none {α : Type} {reg : Register α} {path : Path} {d : Data} {v v' : Review}
    (h : validated reg path d v = .ok none v') : v'.isValid ≠ true := by
  unfold validated at h
  generalize validate reg.model false reg.check d = read at h
  obtain ⟨remarks, outcome⟩ := read
  obtain ⟨u, v₁, hfind, h⟩ := then_ok_iff.mp h
  cases hfind
  cases outcome with
  | ok b => cases h
  | error why =>
    obtain ⟨u, v₂, hfind, h⟩ := then_ok_iff.mp h
    cases hfind
    cases h
    exact Review.not_isValid_of_mem (List.mem_append_right _ (List.mem_singleton_self _)) rfl

/-- Findings that come one after the other are added at the end. -/
theorem findAll_ok {x : Except Fault (List Finding)} {v v' : Review}
    (h : findAll x v = .ok () v') : ∃ more, x = .ok more ∧ v' = v.find more := by
  cases x with
  | error f => cases h
  | ok more => cases h; exact ⟨more, rfl, rfl⟩

section Noted

variable {g : Review → Review} {x : Except Fault (List Finding)} {v v' : Review}

/-- A record is noted, and the findings about it are listed after that. -/
theorem noted_ok (h : (do modify g; findAll x : Reviewing Unit) v = .ok () v') :
    ∃ more, x = .ok more ∧ v' = (g v).find more := by
  obtain ⟨_, _, hset, h⟩ := then_ok_iff.mp h
  cases hset
  exact findAll_ok h

/-- A grave finding stays when a record is noted after it. -/
theorem not_isValid_of_noted {f : Finding}
    (h : (do find [f]; modify g; findAll x : Reviewing Unit) v = .ok () v')
    (hgrave : f.gravity = .error) (hg : ∀ v, (g v).findings = v.findings) : v'.isValid ≠ true := by
  obtain ⟨_, _, hfind, h⟩ := then_ok_iff.mp h
  cases hfind
  obtain ⟨more, -, rfl⟩ := noted_ok h
  refine Review.not_isValid_of_mem (List.mem_append_left more ?_) hgrave
  rw [hg]
  exact List.mem_append_right v.findings (List.mem_singleton_self f)

end Noted

/-- All that reviewing a category does to a review that is valid afterwards. -/
theorem category_ok {path : Path} {d : Data} {v v' : Review} (h : category path d v = .ok () v')
    (hvalid : v'.isValid = true) : ∃ remarks c more,
      validate "RaceCategory" false RaceCategory.check d = (remarks, .ok c) ∧
      v.categories.lookup c.name = none ∧ Local more ∧
      v' = ⟨v.findings ++ more, v.categories ++ [(c.name, path)], v.races⟩ := by
  obtain ⟨found, v₁, hread, h⟩ := then_ok_iff.mp h
  cases found with
  | none => cases h; exact absurd hvalid (validated_none hread)
  | some c =>
    obtain ⟨remarks, hrecord, rfl⟩ := validated_some hread
    obtain ⟨_, _, hget, h⟩ := then_ok_iff.mp h
    cases hget
    cases hlookup : v.categories.lookup c.name with
    | some first =>
      have hlookup' : List.lookup c.name (v.find (remarks.map .rowIgnored)).categories =
          some first := hlookup
      simp only [hlookup'] at h
      exact absurd hvalid (not_isValid_of_noted h rfl fun _ => rfl)
    | none =>
      have hlookup' : List.lookup c.name (v.find (remarks.map .rowIgnored)).categories = none :=
        hlookup
      simp only [hlookup'] at h
      obtain ⟨more, hmore, rfl⟩ := noted_ok h
      obtain ⟨mapping, hmapping, hmore⟩ := except_bind_ok_iff.mp hmore
      obtain ⟨customs, hcustoms, hmore⟩ := except_bind_ok_iff.mp hmore
      cases hmore
      have hremarks : Local (remarks.map Finding.rowIgnored) := Local.map (fun _ => rfl) _
      have hlocal := (mappingFindings_local hmapping).append (customsFindings_local hcustoms)
      refine ⟨remarks, c, _, hrecord, hlookup, hremarks.append hlocal, ?_⟩
      simp only [Review.find, setEntry_of_lookup hlookup, List.append_assoc]

/-- All that reviewing a race does to a review that is valid afterwards. -/
theorem race_ok {path : Path} {d : Data} {v v' : Review} (h : race path d v = .ok () v')
    (hvalid : v'.isValid = true) : ∃ remarks a more,
      validate "Race" false Race.check d = (remarks, .ok a) ∧
      v.races.lookup a.name = none ∧ Local more ∧
      v' = ⟨v.findings ++ more, v.categories, v.races ++ [(a.name, a.category)]⟩ := by
  obtain ⟨found, v₁, hread, h⟩ := then_ok_iff.mp h
  cases found with
  | none => cases h; exact absurd hvalid (validated_none hread)
  | some a =>
    obtain ⟨remarks, hrecord, rfl⟩ := validated_some hread
    obtain ⟨_, _, hget, h⟩ := then_ok_iff.mp h
    cases hget
    cases hlookup : v.races.lookup a.name with
    | some category =>
      have hagain :
          (List.lookup a.name (v.find (remarks.map .rowIgnored)).races).isSome = true := by
        show (List.lookup a.name v.races).isSome = true
        rw [hlookup]
        rfl
      simp only [hagain, if_true] at h
      exact absurd hvalid (not_isValid_of_noted h rfl fun _ => rfl)
    | none =>
      have hnew :
          ¬ (List.lookup a.name (v.find (remarks.map .rowIgnored)).races).isSome = true := by
        show ¬ (List.lookup a.name v.races).isSome = true
        rw [hlookup]
        exact Bool.false_ne_true
      simp only [hnew] at h
      obtain ⟨more, hmore, rfl⟩ := noted_ok h
      have hremarks : Local (remarks.map Finding.rowIgnored) := Local.map (fun _ => rfl) _
      refine ⟨remarks, a, _, hrecord, hlookup, hremarks.append (customsFindings_local hmore), ?_⟩
      simp only [Review.find, setEntry_of_lookup hlookup, List.append_assoc]

end Reviewing

namespace Loading

variable {α : Type} {reg : Register α} {known : List α} {d : Data} {own : List String} {a : α}

/-- A record with a name of its own is added to those that were read before. -/
theorem addRecord_ok (path : Path) (remarks : List String)
    (hread : validate reg.model false reg.check d = (own, .ok a))
    (hnew : reg.name a ∉ known.map reg.name) :
    addRecord reg path known d remarks = .ok (known ++ [a]) (remarks ++ own) := by
  have hvalidated : validated reg d remarks = .ok a (remarks ++ own) := by
    unfold validated
    rw [hread]
  -- its name is none of those before, so that it is no second record of that name
  have hother : known.any (reg.name · == reg.name a) = false := by
    rw [List.any_eq_false]
    intro b hb hname
    exact hnew (List.mem_map.mpr ⟨b, hb, beq_iff_eq.mp hname⟩)
  refine then_ok_iff.mpr ⟨a, _, hvalidated, ?_⟩
  simp only [hother]
  rfl

end Loading

/-! ### Reviewing beside loading -/

/-- A review has noted the names of the records of some content, and the categories that its races
name. -/
structure Review.Notes (v : Review) (c : Content) : Prop where
  categories : v.categories.map (·.1) = c.categories.map (·.name)
  races : v.races = c.races.map fun a => (a.name, a.category)
  findings : Local v.findings

/-- A step of a review goes with a step of loading: where the review is valid afterwards, it was
valid before, and loading goes on from what the review had noted to what it has noted then. -/
def Follows {ι α : Type} (notes : Review → List α → Prop) (review : ι → Reviewing Unit)
    (add : List α → ι → Loading (List α)) : Prop :=
  ∀ i v v', review i v = .ok () v' → v'.isValid = true → v.isValid = true ∧
    ∀ known remarks, notes v known →
      ∃ known' remarks', add known i remarks = .ok known' remarks' ∧ notes v' known'

/-- Where single steps go together, lists of them do. -/
theorem Follows.forM {ι α : Type} {notes : Review → List α → Prop} {review : ι → Reviewing Unit}
    {add : List α → ι → Loading (List α)} (h : Follows notes review add) :
    Follows notes (fun is : List ι => is.forM review) fun known is => is.foldlM add known := by
  intro is
  induction is with
  | nil =>
    intro v v' hreview hvalid
    cases hreview
    exact ⟨hvalid, fun known remarks hnotes => ⟨known, remarks, rfl, hnotes⟩⟩
  | cons i is ih =>
    intro v v' hreview hvalid
    obtain ⟨_, v₁, hfirst, hrest⟩ := then_ok_iff.mp hreview
    -- the review is known to be valid at its end only, so that the rest comes first
    obtain ⟨hvalid₁, hadd⟩ := ih v₁ v' hrest hvalid
    obtain ⟨hvalid₀, haddFirst⟩ := h i v v₁ hfirst hvalid₁
    refine ⟨hvalid₀, fun known remarks hnotes => ?_⟩
    obtain ⟨known₁, remarks₁, hone, hnotes₁⟩ := haddFirst known remarks hnotes
    obtain ⟨known', remarks', hmore, hnotes'⟩ := hadd known₁ remarks₁ hnotes₁
    refine ⟨known', remarks', ?_, hnotes'⟩
    show List.foldlM add known (i :: is) remarks = _
    rw [List.foldlM_cons]
    exact then_ok_iff.mpr ⟨known₁, remarks₁, hone, hmore⟩

/-- A file is reviewed as it is loaded if its records are. -/
theorem Follows.file {α : Type} {notes : Review → List α → Prop} {reg : Register α}
    {one : Path → Data → Reviewing Unit} {root : Path}
    (h : ∀ path, Follows notes (one path) (Loading.addRecord reg path)) :
    Follows notes (Reviewing.file root one) (Loading.addFile reg root) := by
  intro f v v' hreview hvalid
  obtain ⟨ds, v₁, hread, hrecords⟩ := then_ok_iff.mp hreview
  cases hfile : f.records with
  | error e => rw [hfile] at hread; cases hread
  | ok ds' =>
    rw [hfile] at hread
    cases hread
    obtain ⟨hvalid₀, hadd⟩ := (h (root.join f.parts)).forM ds v v' hrecords hvalid
    refine ⟨hvalid₀, fun known remarks hnotes => ?_⟩
    obtain ⟨known', remarks', hmore, hnotes'⟩ := hadd known remarks hnotes
    refine ⟨known', remarks', then_ok_iff.mpr ⟨ds, remarks, ?_, hmore⟩, hnotes'⟩
    rw [hfile]
    rfl

/-- The files of a folder are reviewed as they are loaded if the records of a file are. -/
theorem Follows.all {α : Type} {notes : Review → List α → Prop} {reg : Register α}
    {one : Path → Data → Reviewing Unit}
    (h : ∀ path, Follows notes (one path) (Loading.addRecord reg path)) {root : Path}
    {files : List SourceFile} {v v' : Review}
    (hreview : (sourceFiles reg.folder files).forM (Reviewing.file root one) v = .ok () v')
    (hvalid : v'.isValid = true) : v.isValid = true ∧ ∀ remarks, notes v [] →
      ∃ known remarks', Loading.all reg root files remarks = .ok known remarks' ∧
        notes v' known := by
  obtain ⟨hvalid₀, hadd⟩ := (Follows.file h).forM (sourceFiles reg.folder files) v v' hreview hvalid
  exact ⟨hvalid₀, hadd []⟩

/-- Reviewing a category goes with adding it. -/
theorem category_follows (path : Path) :
    Follows (fun v known => v.Notes ⟨known, []⟩) (Reviewing.category path)
      (Loading.addRecord .categories path) := by
  intro d v v' hreview hvalid
  obtain ⟨own, c, more, hread, hnew, hmore, rfl⟩ := Reviewing.category_ok hreview hvalid
  refine ⟨Review.isValid_of_append rfl hvalid, fun known remarks hnotes => ?_⟩
  have hadd := @Loading.addRecord_ok _ .categories _ _ _ _ path remarks hread
    (hnotes.categories ▸ lookup_eq_none_iff_notMem.mp hnew)
  refine ⟨_, _, hadd, ?_, hnotes.races, hnotes.findings.append hmore⟩
  rw [List.map_append, List.map_append, hnotes.categories]
  rfl

/-- Reviewing a race goes with adding it. -/
theorem race_follows (categories : List RaceCategory) (path : Path) :
    Follows (fun v known => v.Notes ⟨categories, known⟩) (Reviewing.race path)
      (Loading.addRecord .races path) := by
  intro d v v' hreview hvalid
  obtain ⟨own, a, more, hread, hnew, hmore, rfl⟩ := Reviewing.race_ok hreview hvalid
  refine ⟨Review.isValid_of_append rfl hvalid, fun known remarks hnotes => ?_⟩
  have hnames : v.races.map (·.1) = known.map (·.name) := by
    rw [hnotes.races, List.map_map]
    rfl
  have hadd := @Loading.addRecord_ok _ .races _ _ _ _ path remarks hread
    (hnames ▸ lookup_eq_none_iff_notMem.mp hnew)
  refine ⟨_, _, hadd, hnotes.categories, ?_, hnotes.findings.append hmore⟩
  rw [List.map_append, ← hnotes.races]
  rfl

/-! ### Races without their category -/

/-- The races that name a category which the content does not have, in the order of their names. -/
def Content.strays (c : Content) : List Race :=
  (c.races.mergeSort fun a b => !decide (b.name < a.name)).filter fun a =>
    !a.category.isEmpty && (c.categoryOf a).isNone

theorem Content.mem_strays {c : Content} {a : Race} :
    a ∈ c.strays ↔ a ∈ c.races ∧ a.category ≠ "" ∧ c.categoryOf a = none := by
  unfold strays
  rw [List.mem_filter, List.mem_mergeSort, Bool.and_eq_true, Bool.not_eq_true',
    Option.isNone_iff_eq_none]
  have hempty : a.category.isEmpty = false ↔ a.category ≠ "" := by
    rw [Ne, ← String.isEmpty_iff, Bool.not_eq_true]
  rw [hempty]

/-- A review that has noted the categories finds a name exactly if the content has a category of
that name. -/
theorem Review.Notes.lookup_isNone {v : Review} {c : Content} (h : v.Notes c) (name : String) :
    (v.categories.lookup name).isNone = (c.categories.find? (·.name == name)).isNone := by
  rw [Bool.eq_iff_iff, Option.isNone_iff_eq_none, Option.isNone_iff_eq_none,
    lookup_eq_none_iff_notMem, h.categories, List.find?_eq_none, List.mem_map]
  constructor
  · intro hnone b hb hname
    exact hnone ⟨b, hb, beq_iff_eq.mp hname⟩
  · rintro hnone ⟨b, hb, hname⟩
    exact hnone b hb (beq_iff_eq.mpr hname)

/-- The races that a review warns about are those of the content. -/
theorem Review.Notes.strays {v : Review} {c : Content} (h : v.Notes c) :
    Reviewing.strays v = c.strays.map fun a => (a.name, a.category) := by
  -- sorting goes by names, which a review has noted
  have hsorted := List.map_mergeSort (r := fun a b : Race => !decide (b.name < a.name))
    (s := fun a b => !decide (b.1 < a.1)) (f := fun a => (a.name, a.category)) (l := c.races)
    fun _ _ _ _ => rfl
  unfold Reviewing.strays Content.strays
  rw [h.races, ← hsorted, List.filter_map]
  congr 1
  refine List.filter_congr fun a _ => ?_
  show (!a.category.isEmpty && (v.categories.lookup a.category).isNone) = _
  rw [h.lookup_isNone]
  unfold Content.categoryOf
  cases a.category.isEmpty <;> rfl

/-! ### The review of a folder -/

/-- A review that is valid has noted the names of the content that loading gives, and adds warnings
about the races of that content whose category does not exist. -/
theorem Content.loading_of_review {root : Path} {files : List SourceFile} {v : Review}
    (hreview : Content.review root files = (v, none)) (hvalid : v.isValid = true) :
    ∃ c before, (Content.load root files).2 = .ok c ∧ Review.Notes before c ∧
      v = before.find (c.strays.map fun a => .categoryUnknown a.name a.category) := by
  obtain ⟨u, hfolder⟩ : ∃ u, Reviewing.folder root files {} = .ok u v := by
    unfold Content.review at hreview
    cases hrun : Reviewing.folder root files {} with
    | ok u v' => rw [hrun] at hreview; cases hreview; exact ⟨u, rfl⟩
    | error f v' => rw [hrun] at hreview; cases hreview
  obtain ⟨_, v₁, hcategories, hrest⟩ := then_ok_iff.mp hfolder
  obtain ⟨_, v₂, hraces, hrest⟩ := then_ok_iff.mp hrest
  obtain ⟨_, _, hget, hfind⟩ := then_ok_iff.mp hrest
  cases hget
  cases hfind
  -- the review was valid after the races already, and so after the categories
  have hvalid₂ := Review.isValid_of_append rfl hvalid
  obtain ⟨hvalid₁, -⟩ := Follows.all (race_follows []) hraces hvalid₂
  obtain ⟨categories, remarks₁, hload₁, hnotes₁⟩ :=
    (Follows.all category_follows hcategories hvalid₁).2 [] ⟨rfl, rfl, Local.nil⟩
  obtain ⟨races, remarks₂, hload₂, hnotes₂⟩ :=
    (Follows.all (race_follows categories) hraces hvalid₂).2 remarks₁ hnotes₁
  have hloading : Content.loading root files [] = .ok ⟨categories, races⟩ remarks₂ :=
    then_ok_iff.mpr ⟨categories, remarks₁, hload₁,
      then_ok_iff.mpr ⟨races, remarks₂, hload₂, rfl⟩⟩
  refine ⟨⟨categories, races⟩, v₂, ?_, hnotes₂, ?_⟩
  · unfold Content.load
    rw [hloading]
  · rw [hnotes₂.strays, List.map_map]
    rfl

namespace Cli

/-- The folder that is reviewed if a command line names that folder, or none. -/
def reviewedFolder (env : Surroundings) (folder : Option String) : Path :=
  (folder.map Path.ofText).getD (env.program.join ["content"])

/-- A review that ends with exit code 0 was valid, and no fault ended it. -/
theorem review_of_exitCode {root : Path} {files : List SourceFile}
    (h : (runReview root files).exitCode = 0) :
    ∃ v, Content.review root files = (v, none) ∧ v.isValid = true := by
  unfold runReview at h
  generalize Content.review root files = reviewed at h ⊢
  obtain ⟨v, fault⟩ := reviewed
  cases fault with
  | some f => cases h
  | none =>
    cases hvalid : v.isValid with
    | true => exact ⟨v, rfl, hvalid⟩
    | false =>
      simp only [hvalid] at h
      cases h

/-- The output of a review that is valid: its warnings, and a line with two numbers. -/
theorem runReview_out {root : Path} {files : List SourceFile} {v : Review}
    (hreview : Content.review root files = (v, none)) (hvalid : v.isValid = true) :
    (runReview root files).out =
      (v.findings.filter fun f => f.gravity == .warning).map Finding.line ++ [validLine v] := by
  have hsame : ∀ b : Bool, (b == true) = b := by decide
  unfold runReview
  rw [hreview]
  simp only [hvalid, if_true, hsame]

/-- Warnings about races stay when only warnings are kept. -/
theorem filter_warning (fs : List Finding) (strays : List Race) :
    ((fs ++ strays.map fun a => Finding.categoryUnknown a.name a.category).filter
        fun f => f.gravity == .warning) =
      (fs.filter fun f => f.gravity == .warning) ++
        strays.map fun a => Finding.categoryUnknown a.name a.category := by
  rw [List.filter_append, List.filter_map]
  congr 2
  exact List.filter_eq_self.mpr fun _ _ => rfl

/-- Content that passes the command can be loaded from the same folder. The last line counts the
categories and races of the content, and the lines before it warn last about its races whose
category does not exist, and about no other race in this way. -/
theorem validated_content_loads {env : Surroundings} {folder : Option String}
    (hpassed : ((Command.validateContent folder).run env).exitCode = 0) :
    ∃ c others,
      (Content.load (reviewedFolder env folder) (env.files (reviewedFolder env folder))).2 = .ok c ∧
      ((Command.validateContent folder).run env).out = others.map Finding.line ++
        c.strays.map (fun a => (Finding.categoryUnknown a.name a.category).line) ++
        ["Content validated successfully (" ++ (Number.int c.categories.length).text ++
          " categories, " ++ (Number.int c.races.length).text ++ " races)."] ∧
      Local others ∧
      (∀ a, a ∈ c.strays ↔ a ∈ c.races ∧ a.category ≠ "" ∧ c.categoryOf a = none) := by
  have hexit : (runReview (reviewedFolder env folder)
      (env.files (reviewedFolder env folder))).exitCode = 0 := hpassed
  show ∃ c others, _ ∧ (runReview (reviewedFolder env folder)
    (env.files (reviewedFolder env folder))).out = _ ∧ _
  generalize reviewedFolder env folder = root at hexit ⊢
  generalize env.files root = files at hexit ⊢
  obtain ⟨v, hreview, hvalid⟩ := review_of_exitCode hexit
  obtain ⟨c, before, hload, hnotes, hfindings⟩ := Content.loading_of_review hreview hvalid
  refine ⟨c, before.findings.filter (·.gravity == .warning), hload, ?_, ?_, fun a => c.mem_strays⟩
  · have hcategories : v.categories.length = c.categories.length := by
      have hnames := congrArg List.length hnotes.categories
      rw [List.length_map, List.length_map] at hnames
      rw [hfindings]
      exact hnames
    have hraces : v.races.length = c.races.length := by
      have hnames := congrArg List.length hnotes.races
      rw [List.length_map] at hnames
      rw [hfindings]
      exact hnames
    have hwarnings : (v.findings.filter fun f => f.gravity == .warning) =
        (before.findings.filter fun f => f.gravity == .warning) ++
          c.strays.map fun a => Finding.categoryUnknown a.name a.category := by
      rw [hfindings]
      exact filter_warning before.findings c.strays
    have hline : validLine v = "Content validated successfully (" ++
        (Number.int c.categories.length).text ++ " categories, " ++
        (Number.int c.races.length).text ++ " races)." := by
      unfold validLine
      rw [hcategories, hraces]
    have hstrays : (c.strays.map fun a => Finding.categoryUnknown a.name a.category).map
        Finding.line = c.strays.map fun a => (Finding.categoryUnknown a.name a.category).line := by
      rw [List.map_map]
      rfl
    rw [runReview_out hreview hvalid, hwarnings, hline, List.map_append, hstrays]
  · intro f hf
    exact hnotes.findings f (List.mem_filter.mp hf).1

/-- A folder with one category and one race, which names another category. -/
def sampleSurroundings : Surroundings :=
  { home := "", program := Path.ofText "/kindred", settings := none, chance := 0,
    files := fun _ => [
      ⟨["categories", "elves.json"], "\x7b\"name\": \"Elves\"\x7d"⟩,
      ⟨["races", "wood.json"], "\x7b\"name\": \"Wood elf\", \"category\": \"Elf\"\x7d"⟩] }

theorem sampleSurroundings_loads :
    ((Command.validateContent none).run sampleSurroundings).out =
      ["[WARN] Race Wood elf refers to unknown category 'Elf'; defaults will be used",
        "Content validated successfully (1 categories, 1 races)."] ∧
    ∃ c, (Content.load (Path.ofText "/kindred/content")
        (sampleSurroundings.files (Path.ofText "/kindred/content"))).2 = .ok c ∧
      ∀ a, a ∈ c.strays ↔ a ∈ c.races ∧ a.category ≠ "" ∧ c.categoryOf a = none := by
  have hpassed : ((Command.validateContent none).run sampleSurroundings).exitCode = 0 := by
    decide +kernel
  have hfolder : reviewedFolder sampleSurroundings none = Path.ofText "/kindred/content" := by
    decide +kernel
  obtain ⟨c, others, hload, -, -, hstrays⟩ := validated_content_loads hpassed
  rw [hfolder] at hload
  exact ⟨by decide +kernel, c, hload, hstrays⟩

end Cli

end Kindred
