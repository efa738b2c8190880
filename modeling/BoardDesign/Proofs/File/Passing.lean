import BoardDesign.Proofs.File.Careful
import BoardDesign.Proofs.File.Way

/-!
# A place that is passed by

Only something of one kind lies at a place, and what passes the place by leaves it so.

* `World.Through`: the places that a path comes through, its end among them;
* `World.PassesBy`: nothing is put at a place, whatever is put elsewhere or removed;
* `World.Only`: nothing lies at a place but something of one kind;
* `Action.Maintains`: actions that maintain an invariant whether they fail or not;
* `maintains_bind` and its like: actions made of other actions;
* `maintains_writeBytes` and its like: single operations pass by every place that is not theirs.
-/

namespace BoardDesign

open File File.Path

namespace World

variable {w w' w'' : World} {here l m place : Location} {path target parent name : String}
  {content : List UInt8} {P : Node → Prop}

/-! ## The places that a path comes through -/

def Through (here : Location) (path : String) (m : Location) : Prop :=
  ∃ front rest, steps path = front ++ rest ∧ m = front.foldl enter (start here path)

theorem through_self (here : Location) (path : String) :
    Through here path (placeFrom here path) :=
  ⟨steps path, [], (List.append_nil _).symm, placeFrom_eq_steps here path⟩

theorem ne_of_not_through (off : ¬ Through here path place) : placeFrom here path ≠ place :=
  fun same => off (same ▸ through_self here path)

theorem Through.of_parent (above : parent? path = some parent) (h : Through here parent m) :
    Through here path m := by
  obtain ⟨absolute, rest, whole⟩ := steps_parent above
  obtain ⟨front, more, split, rfl⟩ := h
  exact ⟨front, more ++ rest, by rw [whole, split, List.append_assoc], by rw [start, start, absolute]⟩

/-- A plain path only comes through what lies above its end. -/
theorem prefix_of_through (plain : Plain path) (h : Through here path m) :
    m <+: placeFrom here path := by
  obtain ⟨front, rest, split, rfl⟩ := h
  have noDots : ∀ name ∈ front, name ≠ "." ∧ name ≠ ".." := fun name mem => by
    have step := List.mem_filter.mp (split ▸ List.mem_append_left rest mem : name ∈ steps path)
    exact ⟨by simpa using step.2, fun up => plain.noUp (up ▸ step.1)⟩
  rw [plain.placeFrom, split, foldl_enter_of_noUp fun up => (noDots _ up).2 rfl,
    List.filter_eq_self.mpr fun name mem => by simpa using (noDots name mem).1, start,
    plain.absolute]
  exact List.prefix_append _ _

/-! ## Nothing is put at a place -/

/-- Whatever lies at the place has lain there before. -/
structure PassesBy (place : Location) (w w' : World) : Prop where
  here : w'.here = w.here
  proper : w'.files.Proper
  old : ∀ n, w'.files.find? place = some n → w.files.find? place = some n

theorem PassesBy.trans (h : PassesBy place w w') (h' : PassesBy place w' w'') :
    PassesBy place w w'' :=
  ⟨h'.here.trans h.here, h'.proper, fun n found => h.old n (h'.old n found)⟩

section Operations

variable (proper : w.files.Proper)
include proper

theorem passesBy_self : PassesBy place w w := ⟨rfl, proper, fun _ found => found⟩

theorem passesBy_insert {n : Node} (dir : w.files.find? l = some .dir) (isName : IsName name)
    (keeps : w.files.find? (l ++ [name]) = some .dir → n = .dir) (apart : l ++ [name] ≠ place) :
    PassesBy place w { w with files := w.files.insert (l ++ [name]) n } := by
  refine ⟨rfl, proper.insert dir isName keeps, fun n' found => ?_⟩
  have same := find?_insert' (t := w.files) (n := n) (l := l ++ [name]) (by simp) place
  rw [if_neg apart.symm] at same
  exact same.symm.trans found

theorem passesBy_write (h : w.write path content = .ok w') (apart : w.placeOf path ≠ place) :
    PassesBy place w w' := by
  obtain ⟨l, name, executable, leads, noDir, rfl⟩ := write_eq_ok h
  exact passesBy_insert proper leads.dir_find? leads.isName (fun dir => absurd dir noDir)
    (leads.placeOf ▸ apart)

theorem passesBy_create (h : w.create path content = .ok w') (apart : w.placeOf path ≠ place) :
    PassesBy place w w' := by
  obtain ⟨l, name, leads, none, rfl⟩ := create_eq_ok h
  exact passesBy_insert proper leads.dir_find? leads.isName (by simp [none])
    (leads.placeOf ▸ apart)

theorem passesBy_copy {source : String} (h : w.copy source target = .ok w')
    (apart : w.placeOf target ≠ place) : PassesBy place w w' := by
  obtain ⟨w₁, content, executable, written, -, rfl⟩ := write_of_copy h
  have emptied := passesBy_write proper written apart
  obtain ⟨l, name, x, leads, noDir, rfl⟩ := write_eq_ok written
  rw [leads.placeOf] at apart ⊢
  refine emptied.trans (passesBy_insert emptied.proper ?_ leads.isName ?_ apart)
  · exact (keeps_insert noDir).dirs l leads.dir_find?
  · intro dir
    rw [Tree.find?_insert (by simp), if_pos rfl] at dir
    cases dir

theorem passesBy_makeDir (h : w.makeDir path = .ok w') (apart : w.placeOf path ≠ place) :
    PassesBy place w w' := by
  obtain ⟨l, name, leads, none, rfl⟩ := makeDir_eq_ok h
  exact passesBy_insert proper leads.dir_find? leads.isName (fun _ => rfl) (leads.placeOf ▸ apart)

theorem passesBy_makeDirs (off : ¬ Through w.here path place) :
    PassesBy place w (w.makeDirs path).2 := by
  have guards : Guards (fun _ => False) w (w.makeDirs path).2 := guards_makeDirsFrom proper _
  refine ⟨guards.here, guards.proper, fun n found => ?_⟩
  exact ((find?_of_makeDirsFrom _ place).resolve_right off).symm.trans found

theorem passesBy_removeFile (h : w.removeFile path = .ok w') : PassesBy place w w' := by
  have guards : Guards (fun _ => False) w w' := guards_removeFile proper h
  obtain ⟨l, -, -, rfl⟩ := removeFile_eq_ok h
  refine ⟨rfl, guards.proper, fun n found => ?_⟩
  by_cases root : place = []
  · subst root
    exact found
  rw [Tree.find?_erase root] at found
  split at found
  · cases found
  · exact found

theorem passesBy_eraseBelow : PassesBy place w { w with files := w.files.eraseBelow l } := by
  refine ⟨rfl, proper.eraseBelow, fun n found => ?_⟩
  by_cases root : place = []
  · subst root
    exact found
  rw [Tree.find?_eraseBelow root] at found
  split at found
  · cases found
  · exact found

theorem passesBy_emptyDir (dir : w.files.find? l = some .dir) :
    PassesBy place w (w.emptyDir l) := by
  have guards : Guards (fun _ => False) w (w.emptyDir l) := guards_emptyDir proper dir
  refine ⟨guards.here, guards.proper, fun n found => ?_⟩
  have erases : PassesBy place w { w with files := w.files.eraseBelow l } :=
    passesBy_eraseBelow proper
  have erased := erases.old n
  unfold emptyDir at found
  obtain rfl | ⟨above, name, rfl⟩ := l.eq_nil_or_concat
  · exact erased found
  · rw [List.concat_eq_append] at dir erased found
    simp only [List.isEmpty_iff, List.append_eq_nil_iff, List.cons_ne_self, and_false,
      if_false] at found
    rw [find?_insert' (by simp)] at found
    split at found
    · rename_i itself
      cases found
      exact itself ▸ dir
    · exact erased found

theorem passesBy_removeDir (path : String) : PassesBy place w (w.removeDir path).2 := by
  unfold removeDir
  split
  · exact passesBy_self proper
  · split
    · exact passesBy_self proper
    · rename_i l _ isDir
      have dir : w.files.find? l = some .dir := isDirAt_iff.mp (by simpa using isDir)
      split
      · exact passesBy_emptyDir proper dir
      · split
        · exact passesBy_emptyDir proper dir
        · split
          · exact passesBy_emptyDir proper dir
          · exact passesBy_eraseBelow proper

/-- A rename passes by every place that is not at or below the new one. -/
theorem passesBy_rename {source : String} (h : w.rename source target = .ok w')
    (outside : ¬ Tree.isBelow (w.placeOf target) place = true) : PassesBy place w w' := by
  have guards : Guards (fun _ => False) w w' := guards_rename proper h fun _ none => none.elim
  refine ⟨guards.here, guards.proper, fun n found => ?_⟩
  obtain ⟨k, old, l, name, leads, leads', ⟨rfl, -⟩ | ⟨rfl, -, -⟩⟩ := rename_eq_ok' h
  · exact found
  by_cases root : place = []
  · subst root
    exact found
  rw [leads'.placeOf] at outside
  rw [Tree.find?_move (by simp) root, if_neg outside] at found
  split at found
  · cases found
  · exact found

end Operations

/-- A rename of a file passes by every place but the new one. -/
theorem passesBy_renameFile {source : String} (proper : w.files.Proper)
    (h : w.rename source target = .ok w') (noDir : w.files.find? (w.placeOf source) ≠ some .dir)
    (apart : w.placeOf target ≠ place) : PassesBy place w w' := by
  have guards : Guards (fun _ => False) w w' := guards_rename proper h fun _ none => none.elim
  refine ⟨guards.here, guards.proper, fun n found => ?_⟩
  by_cases below : Tree.isBelow (w.placeOf target) place = true
  · -- Below a file there is nothing.
    obtain ⟨rest, rfl⟩ := Tree.isBelow_iff.mp below
    have some : rest ≠ [] := fun none => apart (by rw [none, List.append_nil])
    rw [find?_of_rename h, proper.closed.find?_below noDir some] at found
    cases found
  · exact (passesBy_rename proper h below).old n found

/-! ## One kind of thing at a place -/

/-- The world is seen from `here`, and nothing lies at the place but something of one kind. -/
structure Only (here place : Location) (P : Node → Prop) (w : World) : Prop where
  here : w.here = here
  proper : w.files.Proper
  only : ∀ n, w.files.find? place = some n → P n

theorem Only.passesBy (h : Only here place P w) (passes : PassesBy place w w') :
    Only here place P w' :=
  ⟨passes.here.trans h.here, passes.proper, fun n found => h.only n (passes.old n found)⟩

theorem Only.placeOf (h : Only here place P w) (path : String) :
    w.placeOf path = placeFrom here path := by
  rw [placeOf_eq, h.here]

end World

namespace Action

open World

variable {ε δ α β : Type} {inv : World → Prop} {w : World} {here place : Location}
  {P : Node → Prop} {path target : String}

/-! ## Invariants -/

/-- The invariant holds after the action, even if the action fails. -/
def Maintains (inv : World → Prop) (a : Action ε α) : Prop := ∀ w, inv w → inv (a w).2

theorem Maintains.of_done {a : Action ε α} {r : Except ε α} {w' : World} (h : Maintains inv a)
    (holds : inv w) (done : a w = (r, w')) : inv w' := by
  have after := h w holds
  rwa [done] at after

theorem Reads.maintains {a : Action ε α} (h : Reads a) : Maintains inv a := by
  intro w holds
  rwa [h w]

theorem maintains_pure (x : α) : Maintains inv (pure x : Action ε α) := (Reads.pure x).maintains

theorem maintains_throw (e : ε) : Maintains inv (throw e : Action ε α) := (Reads.throw e).maintains

/-- What follows an action is done in a world in which that has been done. -/
theorem maintains_bindAt {a : Action ε α} {f : α → Action ε β} (h : Maintains inv a)
    (h' : ∀ w x w', inv w → a w = (.ok x, w') → inv w' → inv (f x w').2) :
    Maintains inv (a >>= f) := by
  intro w holds
  have first := h w holds
  rw [bind_apply]
  rcases done : a w with ⟨_ | x, w'⟩ <;> rw [done] at first
  · exact first
  · exact h' w x w' holds done first

theorem maintains_bind {a : Action ε α} {f : α → Action ε β} (h : Maintains inv a)
    (h' : ∀ x, Maintains inv (f x)) : Maintains inv (a >>= f) :=
  maintains_bindAt h fun _ x w' _ _ after => h' x w' after

/-- What follows an action starts from what that yields. -/
theorem Maintains.bind {Q : α → Prop} {a : Action ε α} {f : α → Action ε β} (h : Maintains inv a)
    (yields : Yields Q a) (h' : ∀ x, Q x → Maintains inv (f x)) : Maintains inv (a >>= f) :=
  maintains_bindAt h fun w x w' _ done after => h' x (yields w x w' done) w' after

theorem maintains_ite {c : Prop} [Decidable c] {a b : Action ε α} (h : Maintains inv a)
    (h' : Maintains inv b) : Maintains inv (if c then a else b) := by
  split
  · exact h
  · exact h'

/-- An action after which the rest follows, if a condition holds. -/
theorem maintains_when {c : Prop} [Decidable c] {a : Action ε PUnit} {f : PUnit → Action ε α}
    (h : Maintains inv a) (h' : ∀ x, Maintains inv (f x)) :
    Maintains inv (if c then a >>= f else f ⟨⟩) :=
  maintains_ite (maintains_bind h h') (h' _)

theorem maintains_mapError {a : Action ε α} (h : Maintains inv a) (f : ε → δ) :
    Maintains inv (a.mapError f) := by
  intro w holds
  have after := h w holds
  rw [mapError]
  rcases done : a w with ⟨_ | x, w'⟩ <;> rw [done] at after <;> exact after

theorem maintains_attempt {a : Action ε α} (h : Maintains inv a) :
    Maintains inv (a.attempt : Action δ _) := h

theorem maintains_ignoring {a : Action ε α} (h : Maintains inv a) :
    Maintains inv (a.ignoring : Action δ _) := h

theorem maintains_forM {xs : List β} {f : β → Action ε PUnit}
    (h : ∀ x ∈ xs, Maintains inv (f x)) : Maintains inv (xs.forM f) := by
  induction xs with
  | nil => exact maintains_pure _
  | cons x rest ih =>
    exact maintains_bind (h x (.head rest)) fun _ => ih fun y mem => h y (.tail x mem)

theorem maintains_mapM {xs : List β} {f : β → Action ε α}
    (h : ∀ x ∈ xs, Maintains inv (f x)) : Maintains inv (xs.mapM f) := by
  induction xs with
  | nil => exact maintains_pure _
  | cons x rest ih =>
    rw [List.mapM_cons]
    refine maintains_bind (h x (.head rest)) fun y => ?_
    exact maintains_bind (ih fun z mem => h z (.tail x mem)) fun _ => maintains_pure _

theorem maintains_changing {f : World → Except ε World}
    (h : ∀ w w', inv w → f w = .ok w' → inv w') : Maintains inv (changing f) := by
  intro w holds
  rw [changing]
  cases done : f w with
  | error e => exact holds
  | ok w' => exact h w w' holds done

/-! ## Single operations -/

theorem maintains_writeBytes (content : List UInt8) (apart : placeFrom here path ≠ place) :
    Maintains (Only here place P) (writeBytes path content) :=
  maintains_changing fun _ _ h done =>
    h.passesBy (passesBy_write h.proper done (h.placeOf path ▸ apart))

theorem maintains_writeText (text : String) (apart : placeFrom here path ≠ place) :
    Maintains (Only here place P) (writeText path text) := maintains_writeBytes _ apart

theorem maintains_create (content : List UInt8) (apart : placeFrom here path ≠ place) :
    Maintains (Only here place P) (create path content) :=
  maintains_changing fun _ _ h done =>
    h.passesBy (passesBy_create h.proper done (h.placeOf path ▸ apart))

theorem maintains_copy (source : String) (apart : placeFrom here target ≠ place) :
    Maintains (Only here place P) (copy source target) :=
  maintains_changing fun _ _ h done =>
    h.passesBy (passesBy_copy h.proper done (h.placeOf target ▸ apart))

theorem maintains_makeDir (apart : placeFrom here path ≠ place) :
    Maintains (Only here place P) (makeDir path) :=
  maintains_changing fun _ _ h done =>
    h.passesBy (passesBy_makeDir h.proper done (h.placeOf path ▸ apart))

theorem maintains_makeDirs (off : ¬ Through here path place) :
    Maintains (Only here place P) (makeDirs path) := fun _ h =>
  h.passesBy (passesBy_makeDirs h.proper (h.here ▸ off))

theorem maintains_removeFile (path : String) :
    Maintains (Only here place P) (removeFile path) :=
  maintains_changing fun _ _ h done => h.passesBy (passesBy_removeFile h.proper done)

theorem maintains_removeDir (path : String) : Maintains (Only here place P) (removeDir path) :=
  fun _ h => h.passesBy (passesBy_removeDir h.proper path)

theorem maintains_rename (source : String)
    (outside : ¬ Tree.isBelow (placeFrom here target) place = true) :
    Maintains (Only here place P) (rename source target) :=
  maintains_changing fun _ _ h done =>
    h.passesBy (passesBy_rename h.proper done (h.placeOf target ▸ outside))

end Action

end BoardDesign
