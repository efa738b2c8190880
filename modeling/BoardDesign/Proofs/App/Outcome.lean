import BoardDesign.Proofs.App.Application
import BoardDesign.Proofs.Board.Labels
import BoardDesign.Proofs.Generation.Course

/-!
# What comes of making an application

* `Meets`: what a design, a template and the place for the application have to meet;
* `Finished`: the application, and that nothing else is left;
* `Outcome`: there is an application just if that is met, it is finished, and without it what was in
  its place is as it was;
* `generate_outcome`: so it is for templates and applications that lie apart, unless the file system
  fails, along a path that is `Straight`. Along another one the directories made above the new one
  can bring an application into view that is replaced without being asked for
  (`outcome_fails_above`).
-/

namespace BoardDesign.App

open File File.Path World Action
open Generation (IsFault Vacant Straight Above onPath replaceDir deepestPath makeStaging swapIn)
open Graph (ValidDesign)

variable {g : ValidDesign} {s : Source} {w w' u v : World} {m : Location}
  {templateDir : String} {lists : Table NodeRule} {paths : List String}

/-! ## The rules of a template -/

/-- The list rules of the template at a place; without a file of rules there are none. -/
def rulesAt? (w : World) (l : Location) : Option (Table NodeRule) :=
  match w.files.find? (l ++ [rulesFile]) with
  | none => some Table.empty
  | some (.file content _) => (Text.Utf8.text? content).bind readLists?
  | some .dir => none

theorem loadLists_of_there (there : w.doesExist (join templateDir rulesFile) = true) :
    loadLists templateDir w = match w.textAt (join templateDir rulesFile) with
      | .error fault => (.error (.file (join templateDir rulesFile) fault), w)
      | .ok text =>
        match readLists? text with
        | some lists => (.ok lists, w)
        | none => (.error (.invalidTemplateConfig (join templateDir rulesFile)), w) := by
  rw [loadLists, bind_apply]
  simp only [Action.doesExist, ask, there, Bool.not_true, Bool.false_eq_true, if_false]
  rw [bind_apply]
  simp only [onPath, mapError, readText, reading]
  cases w.textAt (join templateDir rulesFile) with
  | error fault => rfl
  | ok text =>
    dsimp only
    cases readLists? text <;> rfl

theorem loadLists_of_opens (opens : w.Opens templateDir) :
    (∃ lists, rulesAt? w (w.placeOf templateDir) = some lists ∧
      loadLists templateDir w = (.ok lists, w)) ∨
    (rulesAt? w (w.placeOf templateDir) = none ∧ ∃ e, loadLists templateDir w = (.error e, w)) := by
  have exist := doesExist_rules opens
  rw [rulesAt?]
  cases found : w.files.find? (w.placeOf templateDir ++ [rulesFile]) with
  | none =>
    rw [found] at exist
    refine .inl ⟨_, rfl, ?_⟩
    rw [loadLists, bind_apply]
    simp only [Action.doesExist, ask, exist]
    rfl
  | some n =>
    have node := opens.nodeAt isName_rulesFile usual_rulesFile found
    rw [loadLists_of_there (by rw [exist, found]; rfl), textAt, bytesAt, node]
    cases n with
    | dir => exact .inr ⟨rfl, _, rfl⟩
    | file content executable =>
      dsimp only [bind, Except.bind]
      cases Text.Utf8.text? content with
      | none => exact .inr ⟨rfl, _, rfl⟩
      | some text =>
        dsimp only [Option.bind]
        cases readLists? text with
        | none => exact .inr ⟨rfl, _, rfl⟩
        | some lists => exact .inl ⟨lists, rfl, rfl⟩

/-- What is made of a design and the rules of a template. -/
def contextOf (g : ValidDesign) (lists : Table NodeRule) : Template.Context :=
  context g (labelMap g (rulesWith lists))

theorem generate_of_lists (isDir : w.isDir s.templateDir = true)
    (loaded : loadLists s.templateDir w = (.ok lists, w)) :
    generate g s w =
      match replaceDir s.outputDir s.force (fill (contextOf g lists) s.templateDir) w with
      | (.ok paths, w') =>
        (.ok ⟨s.outputDir, labelMap g (rulesWith lists), sorted paths⟩, w')
      | (.error e, w') => (.error e, w') := by
  rw [generate, bind_apply]
  simp only [Action.isDir, ask, isDir, Bool.not_true, Bool.false_eq_true, if_false]
  rw [bind_apply, loaded]
  dsimp only
  rw [bind_apply, contextOf]
  rcases replaceDir s.outputDir s.force _ w with ⟨_ | _, _⟩ <;> rfl

theorem generate_of_error {e : Generation.Error} (isDir : w.isDir s.templateDir = true)
    (failed : loadLists s.templateDir w = (.error e, w)) : generate g s w = (.error e, w) := by
  rw [generate, bind_apply]
  simp only [Action.isDir, ask, isDir, Bool.not_true, Bool.false_eq_true, if_false]
  rw [bind_apply, failed]

/-! ## The outcome -/

/-- The template and the application lie apart, and there is no file where there is to be a
directory. -/
structure Site (s : Source) (w : World) : Prop where
  proper : w.files.Proper
  template : w.isDir s.templateDir = true
  output : Apart (w.placeOf s.templateDir) (w.placeOf s.outputDir)
  staging : Apart (w.placeOf s.templateDir) (w.placeOf (sibling s.outputDir "staging"))
  outside : ¬ Tree.isBelow (w.placeOf s.outputDir) (w.placeOf (sibling s.outputDir "staging")) = true
  noFile : ∀ path ∈ [s.outputDir, sibling s.outputDir "staging", sibling s.outputDir "old"],
    ∀ content executable, w.files.find? (w.placeOf path) ≠ some (.file content executable)

/-- The rules of the template are valid, what is replaced may be, and every text with markers can be
rendered. -/
structure Meets (g : ValidDesign) (s : Source) (w : World) (lists : Table NodeRule) : Prop where
  rules : rulesAt? w (w.placeOf s.templateDir) = some lists
  allowed : (w.files.find? (w.placeOf s.outputDir)).isSome → s.force = true
  sound : ∀ rest e, rest ≠ [rulesFile] →
    ¬ Unrenderable (contextOf g lists) w (w.placeOf s.templateDir) rest e

/-- The application holds what the template holds but for the rules, each file rendered if it is a
text with markers; the paths of those are listed in order. Nothing is left of what it replaced. -/
structure Finished (g : ValidDesign) (s : Source) (w : World) (lists : Table NodeRule)
    (app : Application) (w' : World) : Prop where
  dir : app.dir = s.outputDir
  labels : app.labels = labelMap g (rulesWith lists)
  tree : ∀ rest, w'.files.view (w.placeOf s.outputDir) rest =
    (withoutRules (w.files.view (w.placeOf s.templateDir)) rest).map
      (Option.map (remade (contextOf g lists)))
  rendered : ∃ places : List Location, app.rendered = places.map (pathBelow "") ∧
    places.Pairwise (fun l m => Tree.atMost l m = true) ∧ places.Nodup ∧
    ∀ rest, rest ∈ places ↔
      rest ≠ [rulesFile] ∧ Marked (contextOf g lists) w (w.placeOf s.templateDir) rest
  staging : ∀ rest, w'.files.find? (w.placeOf (sibling s.outputDir "staging") ++ rest) = none
  old : (w.files.find? (w.placeOf s.outputDir)).isSome →
    ∀ rest, w'.files.find? (w.placeOf (sibling s.outputDir "old") ++ rest) = none

/-- There is an application just if all is met, and then it is finished; otherwise what was in its
place is as it was. -/
structure Outcome (g : ValidDesign) (s : Source) (w : World)
    (r : Except Generation.Error Application) (w' : World) : Prop where
  ok_iff : (∃ app, r = .ok app) ↔ ∃ lists, Meets g s w lists
  finished : ∀ app, r = .ok app → ∃ lists, Meets g s w lists ∧ Finished g s w lists app w'
  kept : ∀ e, r = .error e → ∀ rest,
    w'.files.find? (w.placeOf s.outputDir ++ rest) = w.files.find? (w.placeOf s.outputDir ++ rest)

/-- The file system lets the new directory be made, and the template be gone through. -/
structure Workable (s : Source) (w : World) : Prop where
  made : ∃ u, makeStaging s.outputDir w = (.ok (), u)
  ends : ∃ name, EndsIn s.outputDir name
  noUp : ".." ∉ names s.outputDir ∧ ".." ∉ names s.templateDir
  template : w.Walkable s.templateDir deepestPath

/-- Nothing fails for the file system. -/
def NoFault (g : ValidDesign) (s : Source) (w : World) : Prop :=
  (∀ e, (generate g s w).1 = .error e → ¬ IsFault e) ∨ Workable s w

/-! ## The new directory -/

section Made

variable (site : Site s w)
include site

theorem Site.opens : w.Opens s.templateDir := (isDir_iff site.proper.closed).mp site.template

/-- What is in the place of the application is a directory. -/
theorem Site.dir_of_there (there : (w.files.find? (w.placeOf s.outputDir)).isSome) :
    w.files.find? (w.placeOf s.outputDir) = some .dir := by
  obtain ⟨n, found⟩ := Option.isSome_iff_exists.mp there
  cases n with
  | dir => exact found
  | file content executable => exact absurd found (site.noFile _ (.head _) _ _)

/-- The application has a name. -/
theorem Site.named : ∃ name, fileName? s.outputDir = some name := by
  cases named : fileName? s.outputDir with
  | some name => exact ⟨name, rfl⟩
  | none =>
    refine absurd ?_ site.outside
    have self : siblingDir s.outputDir = s.outputDir := by
      rw [siblingDir, named]
    rw [Generation.placeOf_staging, self]
    exact Tree.isBelow_iff.mpr ⟨_, rfl⟩

section Same

variable (straight : Straight w s.outputDir) (made : makeStaging s.outputDir w = (.ok (), u))
include straight made

/-- What does not lie above the application or in the new directory is as it was. -/
theorem Site.find?_of_made (off : ¬ Above m (w.placeOf s.outputDir))
    (out : ¬ Tree.isBelow (w.placeOf (sibling s.outputDir "staging")) m = true) :
    u.files.find? m = w.files.find? m :=
  have ⟨_, named⟩ := site.named
  Generation.find?_of_makeStaging_straight named straight made off out

theorem Site.template_of_made (rest : Location) :
    u.files.find? (w.placeOf s.templateDir ++ rest) =
      w.files.find? (w.placeOf s.templateDir ++ rest) := by
  refine site.find?_of_made straight made ?_ (site.staging.append_left rest).notAbove
  rintro ⟨more, -, place⟩
  exact site.output.notBelow (Tree.isBelow_iff.mpr ⟨rest ++ more, by rw [place, List.append_assoc]⟩)

/-- What lies beside the new directory is as it was. -/
theorem Site.beside_of_made (name : String)
    (apart : siblingName s.outputDir "staging" ≠ name)
    (rest : Location) : u.files.find? (w.placeOf (siblingDir s.outputDir) ++ [name] ++ rest) =
      w.files.find? (w.placeOf (siblingDir s.outputDir) ++ [name] ++ rest) := by
  obtain ⟨last, named⟩ := site.named
  refine site.find?_of_made straight made ?_ ?_
  · rintro ⟨more, some, place⟩
    rw [Generation.placeOf_target_of_named named] at place
    have lengths := congrArg List.length place
    have := List.length_pos_iff.mpr some
    simp only [List.length_append, List.length_singleton] at lengths
    omega
  · rw [Generation.placeOf_staging]
    exact not_isBelow_beside apart rest

end Same

end Made

/-- Filling changes nothing but what lies in the new directory. -/
theorem elsewhere_of_fill {ctx : Template.Context} {dir : String}
    {r : Except Generation.Error (List String)} (proper : u.files.Proper)
    (done : fill ctx templateDir dir u = (r, v)) :
    Elsewhere u.here (fun m => Tree.isBelow (u.placeOf dir) m = true) (fun _ => False) u v := by
  have confined : Confined (fun m => Tree.isBelow (u.placeOf dir) m = true) u.here
      (fill ctx templateDir dir) := by
    rw [placeOf_eq]
    exact confined_of_maintains fun before =>
      maintains_fill (indifferent_elsewhere before) ctx templateDir (covers_below u.here dir)
  exact confined.of_done proper done

section Filled

variable {r : Except Generation.Error (List String)} (site : Site s w)
  (straight : Straight w s.outputDir) (made : makeStaging s.outputDir w = (.ok (), u))
  (filled : fill (contextOf g lists) s.templateDir (sibling s.outputDir "staging") u = (r, v))
include site made

theorem Site.placeOf_made (path : String) : u.placeOf path = w.placeOf path :=
  (Generation.staging_of_makeStaging site.proper made).placeOf path

include straight in
theorem Site.view_of_made :
    u.files.view (u.placeOf s.templateDir) = w.files.view (w.placeOf s.templateDir) := by
  funext rest
  rw [site.placeOf_made made, Tree.view, Tree.view, site.template_of_made straight made]

theorem Site.apart_of_made :
    Apart (u.placeOf s.templateDir) (u.placeOf (sibling s.outputDir "staging")) := by
  rw [site.placeOf_made made, site.placeOf_made made]
  exact site.staging

include filled

theorem Site.here_of_filled : v.here = w.here :=
  (elsewhere_of_fill (Generation.staging_of_makeStaging site.proper made).proper filled).here.trans
    (Generation.staging_of_makeStaging site.proper made).here

theorem Site.placeOf_filled (path : String) : v.placeOf path = w.placeOf path :=
  placeOf_congr (site.here_of_filled made filled) path

theorem Site.find?_of_filled
    (out : ¬ Tree.isBelow (w.placeOf (sibling s.outputDir "staging")) m = true) :
    v.files.find? m = u.files.find? m := by
  have staging := Generation.staging_of_makeStaging site.proper made
  refine (elsewhere_of_fill staging.proper filled).find?_eq ?_
  rwa [site.placeOf_made made]

include straight

/-- What lies beside the new directory is as it was. -/
theorem Site.beside_of_filled (name : String)
    (apart : siblingName s.outputDir "staging" ≠ name)
    (rest : Location) : v.files.find? (w.placeOf (siblingDir s.outputDir) ++ [name] ++ rest) =
      w.files.find? (w.placeOf (siblingDir s.outputDir) ++ [name] ++ rest) := by
  refine (site.find?_of_filled made filled ?_).trans (site.beside_of_made straight made name apart rest)
  rw [Generation.placeOf_staging]
  exact not_isBelow_beside apart rest

theorem Site.output_of_filled (rest : Location) :
    v.files.find? (w.placeOf s.outputDir ++ rest) = w.files.find? (w.placeOf s.outputDir ++ rest) := by
  obtain ⟨last, named⟩ := site.named
  rw [Generation.placeOf_target_of_named named]
  exact site.beside_of_filled straight made filled last (Generation.ne_siblingName named _) rest

/-- Where filling fails, what was in the place of the application is as it was. -/
theorem Site.kept_of_not_filled (rest : Location) :
    (v.removeDir (sibling s.outputDir "staging")).2.files.find? (w.placeOf s.outputDir ++ rest) =
      w.files.find? (w.placeOf s.outputDir ++ rest) := by
  obtain ⟨name, named⟩ := site.named
  refine (find?_removeDir _ ?_).trans (site.output_of_filled straight made filled rest)
  rw [site.placeOf_filled made filled, Generation.placeOf_staging,
    Generation.placeOf_target_of_named named]
  exact not_isBelow_beside (Generation.ne_siblingName named _) rest

end Filled

section Placed

variable (site : Site s w) (straight : Straight w s.outputDir)
  (made : makeStaging s.outputDir w = (.ok (), u))
  (filled : fill (contextOf g lists) s.templateDir (sibling s.outputDir "staging") u = (.ok paths, v))
include site straight made filled

/-- The new directory is filled as if the template had been read before it was made. -/
theorem Site.fills : Filled (contextOf g lists) w v (w.placeOf s.templateDir)
    (w.placeOf (sibling s.outputDir "staging")) paths := by
  obtain ⟨view, sound, listed⟩ :=
    fill_eq_ok (Generation.staging_of_makeStaging site.proper made).proper
      (Generation.opens_of_makeStaging made) (site.apart_of_made made)
      (Generation.vacant_of_makeStaging site.proper made) filled
  have same := site.view_of_made straight made
  rw [site.placeOf_made made (sibling s.outputDir "staging"), same] at view
  simp only [Unrenderable, Marked, same] at sound listed
  exact ⟨view, sound, listed⟩

/-- The paths of the rendered files in their order. -/
theorem Site.rendered_of_filled : ∃ places : List Location, sorted paths = places.map (pathBelow "") ∧
    places.Pairwise (fun l m => Tree.atMost l m = true) ∧ places.Nodup ∧
    ∀ rest, rest ∈ places ↔
      rest ≠ [rulesFile] ∧ Marked (contextOf g lists) w (w.placeOf s.templateDir) rest := by
  obtain ⟨places, rfl, nodup, mem⟩ := (site.fills straight made filled).listed
  have trans (a b c : Location) (h : Tree.atMost a b = true) (h' : Tree.atMost b c = true) :
      Tree.atMost a c = true := Tree.atMost_trans h h'
  refine ⟨places.mergeSort Tree.atMost, sorted_pathsBelow fun l inside => ?_,
    List.pairwise_mergeSort trans Tree.atMost_total _,
    (List.mergeSort_perm _ _).nodup_iff.mpr nodup, fun rest => ?_⟩
  · obtain ⟨-, content, -, found, -⟩ := (mem l).mp inside
    obtain ⟨name, -, rest, rfl⟩ := Tree.exists_child_of_view site.proper.closed site.opens.dir found
    have there : (w.files.find? (w.placeOf s.templateDir ++ name :: rest)).isSome := by
      rw [← Tree.isSome_view, found]
      rfl
    exact ⟨List.cons_ne_nil _ _, fun _ => site.proper.isName_of_found there⟩
  · rw [List.mem_mergeSort, mem]

/-- What was in the place of the application is found until it is moved aside. -/
theorem Site.doesExist_of_filled (there : (w.files.find? (w.placeOf s.outputDir)).isSome) :
    v.doesExist s.outputDir = true := by
  obtain ⟨name, named⟩ := site.named
  have here := (Generation.staging_of_makeStaging site.proper made).here
  obtain ⟨l, other, leads, -⟩ := Generation.leads_of_makeStaging made
  have leads' : v.Leads (sibling s.outputDir "staging") l other := by
    refine leads.congr ((site.here_of_filled made filled).trans here.symm) fun m way => ?_
    have way' := (onWay_sibling (by decide) (by decide) named).mp (here ▸ way)
    exact site.find?_of_filled made filled
      (Generation.not_isBelow_staging_of_onWay site.proper made named way')
  have dir : v.files.find? (v.placeOf s.outputDir) = some .dir := by
    have same := site.output_of_filled straight made filled []
    rw [List.append_nil, site.dir_of_there there] at same
    rwa [site.placeOf_filled made filled]
  exact doesExist_iff.mpr (opens_of_sibling named (by decide) (by decide) leads' dir).located

/-- Nothing stays beside the application. -/
theorem Site.finished_of_placed
    (done : swapIn (sibling s.outputDir "staging") s.outputDir v = (.ok (), w')) :
    Finished g s w lists ⟨s.outputDir, labelMap g (rulesWith lists), sorted paths⟩ w' := by
  obtain ⟨name, named⟩ := site.named
  have place := site.placeOf_filled made filled
  obtain ⟨-, found⟩ := Generation.find?_of_swapIn done
  refine ⟨rfl, rfl, fun rest => ?_, site.rendered_of_filled straight made filled, fun rest => ?_,
    fun there rest => ?_⟩
  · rw [← (site.fills straight made filled).view, Tree.view, ← place, found, place, ← Tree.view]
  · rw [← place]
    exact Generation.staging_gone_of_swapIn named done rest
  · have exist := site.doesExist_of_filled straight made filled there
    have proper := (elsewhere_of_fill
      (Generation.staging_of_makeStaging site.proper made).proper filled).proper
    rw [← place]
    refine Generation.old_gone_of_swapIn named done proper.closed exist (fun m way => ?_) rest
    rw [place]
    exact Generation.not_isBelow_staging_of_onWay site.proper made named
      (site.here_of_filled made filled ▸ way)

/-- The new directory gets into its place. -/
theorem Site.exists_swapIn (workable : Workable s w) :
    ∃ w', swapIn (sibling s.outputDir "staging") s.outputDir v = (.ok (), w') := by
  obtain ⟨name, ends⟩ := workable.ends
  have past (here : Location) := Generation.leadsPast_of_noUp ends workable.noUp.1 here
  obtain ⟨l, placed, -⟩ := Generation.placed_of_makeStaging ends made
  have staged : w.placeOf (sibling s.outputDir "staging") =
      l ++ [siblingName s.outputDir "staging"] := by
    rw [← site.placeOf_made made, placed.staging.placeOf]
  have here : v.here = u.here := (elsewhere_of_fill
    (Generation.staging_of_makeStaging site.proper made).proper filled).here
  refine Generation.exists_swapIn ends (past _) (placed.congr ends (past _) here
    fun m _ outside _ => site.find?_of_filled made filled (staged ▸ outside)) ?_ fun c x => ⟨?_, ?_⟩
  · have dir : v.files.view (l ++ [siblingName s.outputDir "staging"]) [] = some none := by
      rw [← staged, (site.fills straight made filled).view, withoutRules, if_neg (by simp)]
      simp [Tree.view, site.opens.dir, Node.content?]
    simpa using Tree.view_eq_dir_iff.mp dir
  · have self : l ++ [name] = w.placeOf s.outputDir := by
      rw [← site.placeOf_made made, placed.self.placeOf]
    have same := site.output_of_filled straight made filled []
    rw [List.append_nil] at same
    rw [self, same]
    exact site.noFile _ (by simp) c x
  · have old : l ++ [siblingName s.outputDir "old"] = w.placeOf (sibling s.outputDir "old") := by
      rw [← site.placeOf_made made, placed.old.placeOf]
    have same := site.beside_of_filled straight made filled (siblingName s.outputDir "old")
      (Generation.staging_ne_old _) []
    rw [List.append_nil, ← Generation.placeOf_old] at same
    rw [old, same]
    exact site.noFile _ (by simp) c x

end Placed

/-! ## All that can come of it -/

section Result

variable {r : Except Generation.Error Application} {e : Generation.Error} {app : Application}

theorem outcome_of_error (never : ∀ lists, ¬ Meets g s w lists)
    (kept : ∀ rest, w'.files.find? (w.placeOf s.outputDir ++ rest) =
      w.files.find? (w.placeOf s.outputDir ++ rest)) : Outcome g s w (.error e) w' := by
  refine ⟨⟨?_, ?_⟩, ?_, fun _ _ => kept⟩
  · rintro ⟨_, ⟨⟩⟩
  · rintro ⟨lists, meets⟩
    exact absurd meets (never lists)
  · rintro _ ⟨⟩

theorem outcome_of_ok (meets : Meets g s w lists) (finished : Finished g s w lists app w') :
    Outcome g s w (.ok app) w' := by
  refine ⟨⟨fun _ => ⟨lists, meets⟩, fun _ => ⟨app, rfl⟩⟩, ?_, ?_⟩
  · rintro _ ⟨⟩
    exact ⟨lists, meets, finished⟩
  · rintro _ ⟨⟩

variable (site : Site s w) (straight : Straight w s.outputDir)
include site straight

/-- The template can still be gone through when the new directory has been made. -/
theorem Site.walkable_of_made (workable : Workable s w)
    (made : makeStaging s.outputDir w = (.ok (), u)) : u.Walkable s.templateDir deepestPath := by
  have here := (Generation.staging_of_makeStaging site.proper made).here
  refine ⟨site.opens.of_above site.proper.closed workable.noUp.2 here fun front rest split dir => ?_,
    fun rest name there => ?_, fun rest there => ?_⟩
  · refine Generation.dir_of_makeStaging site.proper made dir fun below => ?_
    refine site.staging.notAbove ?_
    rw [split]
    exact List.isPrefixOf_iff_prefix.mpr
      ((List.isPrefixOf_iff_prefix.mp below).trans (List.prefix_append front rest))
  · rw [site.placeOf_made made, List.append_assoc, site.template_of_made straight made] at there
    exact workable.template.usual rest name (by simpa using there)
  · rw [site.placeOf_made made, site.template_of_made straight made] at there
    exact workable.template.shallow rest there

/-- Filling fails for the file system, or because some text cannot be rendered. -/
theorem Site.not_meets_of_not_filled (rules : rulesAt? w (w.placeOf s.templateDir) = some lists)
    (made : makeStaging s.outputDir w = (.ok (), u))
    (failed : fill (contextOf g lists) s.templateDir (sibling s.outputDir "staging") u =
      (.error e, v)) : (IsFault e ∧ ¬ Workable s w) ∨ ∀ lists', ¬ Meets g s w lists' := by
  obtain ⟨fault, stuck⟩ | ⟨rest, error, other, unrenderable, rfl⟩ :=
    fill_eq_error (Generation.staging_of_makeStaging site.proper made).proper
      (Generation.opens_of_makeStaging made) (site.apart_of_made made)
      (Generation.vacant_of_makeStaging site.proper made) failed
  · refine .inl ⟨fault, fun workable => stuck ⟨site.walkable_of_made straight workable made, ?_⟩⟩
    rw [site.placeOf_made made, site.template_of_made straight made]
    intro dir
    simp [rulesAt?, dir] at rules
  · refine .inr fun lists' meets => ?_
    obtain rfl : lists = lists' := Option.some.inj (rules.symm.trans meets.rules)
    refine meets.sound rest error other ?_
    rwa [Unrenderable, site.view_of_made straight made] at unrenderable

/-- An application is made just if the design, the template and its place allow it, and then it is
what the template holds with its texts rendered; without one its place is as it was. -/
theorem generate_outcome (noFault : NoFault g s w) :
    Outcome g s w (generate g s w).1 (generate g s w).2 := by
  obtain ⟨lists, rules, loaded⟩ | ⟨none, e, failed⟩ := loadLists_of_opens site.opens
  case inr =>
    rw [generate_of_error site.template failed]
    refine outcome_of_error (fun lists meets => ?_) fun _ => rfl
    cases none.symm.trans meets.rules
  have whole := generate_of_lists (g := g) site.template loaded
  rcases replaced : replaceDir s.outputDir s.force (fill (contextOf g lists) s.templateDir) w with
    ⟨r, w'⟩
  rw [replaced] at whole
  -- A fault is excluded, unless what has failed cannot fail.
  have excluded {e : Generation.Error} (error : r = .error e) (fault : IsFault e) :
      Workable s w := by
    refine noFault.resolve_left fun never => never e ?_ fault
    rw [whole, error]
  cases Generation.course_of_replaceDir replaced with
  | refused there noForce =>
    rw [whole]
    refine outcome_of_error (fun lists' meets => ?_) fun _ => rfl
    have force := meets.allowed (found_of_locate site.proper.closed (doesExist_iff.mp there))
    rw [noForce] at force
    cases force
  | notMade failed =>
    obtain ⟨u, made⟩ := (excluded rfl (Generation.fails_makeStaging _ _ _ _ failed)).made
    cases failed.symm.trans made
  | notFilled made failed =>
    rw [whole]
    refine outcome_of_error (fun lists' meets => ?_) (site.kept_of_not_filled straight made failed)
    obtain ⟨fault, stuck⟩ | never := site.not_meets_of_not_filled straight rules made failed
    · exact stuck (excluded rfl fault)
    · exact never lists' meets
  | notPlaced made filled failed =>
    have workable := excluded rfl (Generation.fails_swapIn _ _ _ _ _ failed)
    obtain ⟨w', done⟩ := site.exists_swapIn straight made filled workable
    cases failed.symm.trans done
  | placed allowed made filled done =>
    rw [whole]
    refine outcome_of_ok
      ⟨rules, fun there => allowed ?_, (site.fills straight made filled).sound⟩
      (site.finished_of_placed straight made filled done)
    obtain ⟨name, named⟩ := site.named
    exact doesExist_iff.mpr (Generation.opens_target named straight site.proper made
      (site.dir_of_there there)).located

end Result

/-! ## Applications beside what is there -/

/-- A template with rules, a text with a marker and a directory, and an older application. -/
def demoWorld : World :=
  ⟨⟨[(["tpl"], .dir), (["tpl", "template.toml"], .file [] false),
    (["tpl", "name"], .file (Text.Utf8.bytes "\x7b\x7bboard_name\x7d\x7d") false),
    (["tpl", "src"], .dir), (["tpl", "src", "a"], .file [255] false),
    (["out"], .dir), (["out", "keep"], .file [50] false)]⟩, [], 0, [], 0, []⟩

def demoSource (output : String) (force : Bool) : Source := ⟨"tpl", output, force⟩

theorem site_demoWorld {output : String} (force : Bool)
    (mem : output ∈ ["out", "y/../out", "tpl/x/../../new"]) :
    Site (demoSource output force) demoWorld := by
  have noFile : ∀ output ∈ ["out", "y/../out", "tpl/x/../../new"],
      ∀ path ∈ [output, sibling output "staging", sibling output "old"],
        demoWorld.files.find? (demoWorld.placeOf path) ∈ [none, some .dir] := by decide
  have apart : ∀ output ∈ ["out", "y/../out", "tpl/x/../../new"],
      ∀ path ∈ [output, sibling output "staging"],
        ¬ Tree.isBelow (demoWorld.placeOf "tpl") (demoWorld.placeOf path) = true ∧
          ¬ Tree.isBelow (demoWorld.placeOf path) (demoWorld.placeOf "tpl") = true := by decide
  have outside : ∀ output ∈ ["out", "y/../out", "tpl/x/../../new"],
      ¬ Tree.isBelow (demoWorld.placeOf output)
        (demoWorld.placeOf (sibling output "staging")) = true := by decide
  obtain ⟨below, above⟩ := apart _ mem _ (.head _)
  obtain ⟨below', above'⟩ := apart _ mem _ (.tail _ (.head _))
  have isDir : demoWorld.isDir "tpl" = true := by decide
  refine ⟨Tree.proper_of_isProper (by decide), isDir, ⟨below, above⟩, ⟨below', above'⟩,
    outside _ mem, fun path among content executable file => ?_⟩
  have found := noFile _ mem path among
  rw [file] at found
  simp at found

theorem generate_outcome_demoWorld :
    Site (demoSource "out" true) demoWorld ∧ Straight demoWorld "out" ∧
      NoFault Board.bareBoard (demoSource "out" true) demoWorld ∧
      Outcome Board.bareBoard (demoSource "out" true) demoWorld
        (generate Board.bareBoard (demoSource "out" true) demoWorld).1
        (generate Board.bareBoard (demoSource "out" true) demoWorld).2 := by
  have site := site_demoWorld true (.head _)
  have workable : Workable (demoSource "out" true) demoWorld := by
    refine ⟨⟨_, Prod.ext (by decide) rfl⟩, ⟨"out", by decide, by decide, by decide⟩,
      ⟨by decide, by decide⟩, .of_nodes site.opens ?_ (by decide) (by decide)⟩
    have usual : ∀ e ∈ demoWorld.files.nodes, ∀ name ∈ e.1,
        name.utf8ByteSize ≤ longestName ∧ '\x00' ∉ name.toList := by decide
    exact fun e mem name among => ⟨(usual e mem name among).1, (usual e mem name among).2⟩
  exact ⟨site, .inl (by decide), .inr workable, generate_outcome site (.inl (by decide)) (.inr workable)⟩

/-- An application that is not seen before the directories above the new one are made is replaced
without being asked for, and a directory that is made in the template comes into the application. -/
theorem outcome_fails_above :
    (Site (demoSource "y/../out" false) demoWorld ∧
      NoFault Board.bareBoard (demoSource "y/../out" false) demoWorld ∧
      ¬ Outcome Board.bareBoard (demoSource "y/../out" false) demoWorld
        (generate Board.bareBoard (demoSource "y/../out" false) demoWorld).1
        (generate Board.bareBoard (demoSource "y/../out" false) demoWorld).2) ∧
    Site (demoSource "tpl/x/../../new" false) demoWorld ∧
      NoFault Board.bareBoard (demoSource "tpl/x/../../new" false) demoWorld ∧
      ¬ Outcome Board.bareBoard (demoSource "tpl/x/../../new" false) demoWorld
        (generate Board.bareBoard (demoSource "tpl/x/../../new" false) demoWorld).1
        (generate Board.bareBoard (demoSource "tpl/x/../../new" false) demoWorld).2 := by
  have made (output : String) (mem : output ∈ ["y/../out", "tpl/x/../../new"]) :
      ∃ app, (generate Board.bareBoard (demoSource output false) demoWorld).1 = .ok app := by
    have ok : ∀ output ∈ ["y/../out", "tpl/x/../../new"],
        ((generate Board.bareBoard (demoSource output false) demoWorld).1.map fun _ => ()) =
          .ok () := by decide +kernel
    have ok := ok output mem
    cases result : (generate Board.bareBoard (demoSource output false) demoWorld).1 with
    | ok app => exact ⟨app, rfl⟩
    | error e =>
      rw [result] at ok
      cases ok
  have noFault (output : String) (mem : output ∈ ["y/../out", "tpl/x/../../new"]) :
      NoFault Board.bareBoard (demoSource output false) demoWorld := by
    obtain ⟨app, done⟩ := made output mem
    refine .inl fun e failed => ?_
    cases done.symm.trans failed
  refine ⟨⟨site_demoWorld false (by simp), noFault _ (by simp), fun outcome => ?_⟩,
    site_demoWorld false (by simp), noFault _ (by simp), fun outcome => ?_⟩
  · obtain ⟨lists, meets⟩ := outcome.ok_iff.mp (made _ (by simp))
    exact Bool.false_ne_true (meets.allowed (by decide))
  · obtain ⟨app, done⟩ := made "tpl/x/../../new" (by simp)
    obtain ⟨lists, -, finished⟩ := outcome.finished app done
    have there : (generate Board.bareBoard (demoSource "tpl/x/../../new" false)
        demoWorld).2.files.find? (["new"] ++ ["x"]) = some .dir := by decide +kernel
    have before : demoWorld.files.find? (["tpl"] ++ ["x"]) = none := by decide
    have place : demoWorld.placeOf (demoSource "tpl/x/../../new" false).outputDir = ["new"] := by
      decide
    have place' : demoWorld.placeOf (demoSource "tpl/x/../../new" false).templateDir = ["tpl"] := by
      decide
    have view := finished.tree ["x"]
    rw [place, place', withoutRules, if_neg (by decide), Tree.view, Tree.view, there, before] at view
    cases view

end BoardDesign.App
