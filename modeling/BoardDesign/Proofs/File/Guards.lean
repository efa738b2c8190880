import BoardDesign.Proofs.File.Resolution

/-!
# Changes that put no file at some places

Some places are guarded: a file may vanish from them, and none may appear there. Names stay names
and directories stay in directories meanwhile.

* `Tree.Proper`: everything in a tree lies in a directory, under a name;
* `write_eq_ok`, `copy_eq_ok`, `rename_eq_ok'`: what these operations change;
* `World.Guards`: a change that guards some places, with a lemma for each operation;
* `Action.Guards`: an action that guards them wherever it is done, with a lemma for each way of
  making an action of others.
-/

namespace BoardDesign

open File File.Path

namespace File.Tree

variable {t : Tree} {l m source target : Location} {n : Node} {name : String}

theorem isBelow_concat_iff :
    isBelow l (m ++ [name]) = true ↔ l = m ++ [name] ∨ isBelow l m = true := by
  rw [isBelow, isBelow, List.isPrefixOf_iff_prefix, List.isPrefixOf_iff_prefix, List.prefix_concat_iff]

/-- What is found after a move under some name: the target, what was moved, or what was there. -/
theorem found_of_move (named : source ≠ [])
    (found : ((t.move source target).find? (m ++ [name])).isSome) :
    target = m ++ [name] ∨
      (∃ front, m = target ++ front ∧ (t.find? (source ++ front ++ [name])).isSome) ∨
      (¬ isBelow target (m ++ [name]) = true ∧ ¬ isBelow source (m ++ [name]) = true ∧
        (t.find? (m ++ [name])).isSome) := by
  rw [find?_move named (by simp)] at found
  split at found
  · rename_i onTarget
    rcases isBelow_concat_iff.mp onTarget with same | below
    · exact .inl same
    · obtain ⟨front, rfl⟩ := isBelow_iff.mp below
      rw [List.append_assoc target, List.drop_left, ← List.append_assoc] at found
      exact .inr (.inl ⟨front, rfl, found⟩)
  · rename_i notTarget
    split at found
    · cases found
    · rename_i notSource
      exact .inr (.inr ⟨notTarget, notSource, found⟩)

theorem mem_of_lookup {nodes : List (Location × Node)} (found : lookup l nodes = some n) :
    (l, n) ∈ nodes := by
  induction nodes with
  | nil => cases found
  | cons e rest ih =>
    obtain ⟨k, x⟩ := e
    rw [lookup] at found
    split at found
    · rename_i same
      cases found
      exact same ▸ .head _
    · exact .tail _ (ih found)

/-- Everything lies in a directory, under a name. -/
structure Proper (t : Tree) : Prop where
  closed : t.Closed
  named : ∀ l name, (t.find? (l ++ [name])).isSome → IsName name

namespace Proper

theorem insert (h : t.Proper) (dir : t.find? l = some .dir) (isName : IsName name)
    (keeps : t.find? (l ++ [name]) = some .dir → n = .dir) : (t.insert (l ++ [name]) n).Proper := by
  refine ⟨h.closed.insert dir keeps, fun m other found => ?_⟩
  rw [find?_insert (by simp)] at found
  split at found
  · rename_i same
    exact List.singleton_injective (List.append_inj' same rfl).2 ▸ isName
  · exact h.named m other found

theorem erase (h : t.Proper) (noDir : t.find? l ≠ some .dir) : (t.erase l).Proper := by
  refine ⟨h.closed.erase noDir, fun m other found => ?_⟩
  rw [find?_erase (by simp)] at found
  split at found
  · cases found
  · exact h.named m other found

theorem eraseBelow (h : t.Proper) : (t.eraseBelow l).Proper := by
  have before {m : Location} {other : String}
      (found : ((t.eraseBelow l).find? (m ++ [other])).isSome) :
      (t.find? (m ++ [other])).isSome ∧ ¬ isBelow l (m ++ [other]) = true := by
    rw [find?_eraseBelow (by simp)] at found
    split at found
    · cases found
    · rename_i outside
      exact ⟨found, outside⟩
  refine ⟨fun m other found => ?_, fun m other found => h.named m other (before found).1⟩
  obtain ⟨there, outside⟩ := before found
  by_cases root : m = []
  · simp [root]
  · rw [find?_eraseBelow root, if_neg fun below => outside (isBelow_concat_iff.mpr (.inr below))]
    exact h.closed m other there

/-- A whole directory moved to a place outside of it. -/
theorem move (h : t.Proper) (named : source ≠ []) (dir : t.find? l = some .dir)
    (isName : IsName name) (outside : ¬ isBelow source (l ++ [name]) = true) :
    (t.move source (l ++ [name])).Proper := by
  -- What is above something that stays stays.
  have stays {m : Location} {other : String}
      (notTarget : ¬ isBelow (l ++ [name]) m = true)
      (notSource : ¬ isBelow source (m ++ [other]) = true) (there : t.find? m = some .dir) :
      (t.move source (l ++ [name])).find? m = some .dir := by
    by_cases root : m = []
    · simp [root]
    · rw [find?_move named root, if_neg notTarget,
        if_neg fun below => notSource (isBelow_concat_iff.mpr (.inr below)), there]
  refine ⟨fun m other found => ?_, fun m other found => ?_⟩
  · rcases found_of_move named found with same | ⟨front, rfl, there⟩ | ⟨notTarget, notSource, there⟩
    · obtain ⟨rfl, last⟩ := List.append_inj' same rfl
      refine stays (fun below => ?_) (List.singleton_injective last ▸ outside) dir
      have := List.IsPrefix.length_le (List.isPrefixOf_iff_prefix.mp below)
      rw [List.length_append, List.length_singleton] at this
      omega
    · by_cases root : l ++ [name] ++ front = []
      · simp at root
      · rw [find?_move named root, if_pos (isBelow_iff.mpr ⟨front, rfl⟩), List.drop_left]
        exact h.closed _ other there
    · exact stays (fun below => notTarget (isBelow_concat_iff.mpr (.inr below))) notSource
        (h.closed m other there)
  · rcases found_of_move named found with same | ⟨front, rfl, there⟩ | ⟨_, _, there⟩
    · exact List.singleton_injective (List.append_inj' same rfl).2 ▸ isName
    · exact h.named _ other there
    · exact h.named m other there

end Proper

/-- Whether everything lies in a directory, under a name. -/
def isProper (t : Tree) : Bool :=
  t.nodes.all fun e =>
    match e.1.reverse with
    | [] => false
    | name :: above => t.find? above.reverse == some .dir && name != "" &&
      !name.toList.contains '/' && name != "." && name != ".."

theorem proper_of_isProper (h : t.isProper = true) : t.Proper := by
  have each {l : Location} {name : String} (found : (t.find? (l ++ [name])).isSome) :
      t.find? l = some .dir ∧ IsName name := by
    obtain ⟨n, found⟩ := Option.isSome_iff_exists.mp found
    rw [find?_of_ne (by simp)] at found
    have mem : (l ++ [name], n) ∈ t.nodes := mem_of_lookup found
    have isProper := List.all_eq_true.mp h _ mem
    simp only [List.reverse_append, List.reverse_singleton, List.singleton_append,
      List.reverse_reverse, Bool.and_eq_true, bne_iff_ne, beq_iff_eq, Bool.not_eq_true',
      ne_eq] at isProper
    obtain ⟨⟨⟨⟨dir, filled⟩, noSlash⟩, notHere⟩, notUp⟩ := isProper
    exact ⟨dir, filled, by simpa using noSlash, notHere, notUp⟩
  exact ⟨fun l name found => (each found).1, fun l name found => (each found).2⟩

end File.Tree

namespace World

variable {w w' : World} {l m : Location} {path source target name : String} {content : List UInt8}

theorem filled_of_mem_names (mem : name ∈ names path) : name ≠ "" ∧ '/' ∉ name.toList := by
  obtain ⟨piece, kept, rfl⟩ := List.mem_map.mp mem
  obtain ⟨isPiece, filled⟩ := List.mem_filter.mp kept
  refine ⟨?_, by simpa using Text.not_mem_of_mem_pieces isPiece⟩
  simpa [← String.toList_inj] using filled

theorem Leads.isName (h : w.Leads path l name) : IsName name := by
  obtain ⟨_, before, _, whole, _⟩ := h.way
  obtain ⟨filled, noSlash⟩ := filled_of_mem_names (whole ▸ List.mem_append_right before (.head _))
  exact ⟨filled, noSlash, h.proper⟩

theorem fileName?_of_names {before : List String} (whole : names path = before ++ [name])
    (proper : name ≠ "." ∧ name ≠ "..") : File.Path.fileName? path = some name := by
  have last : pieceNames (parts path).body = before.filter (· ≠ ".") ++ [name] := by
    rw [← steps_eq_body, steps, whole, List.filter_append]
    simp [proper]
  obtain ⟨front, ends, pieces, -, same⟩ := List.map_eq_append_iff.mp last
  obtain ⟨piece, rfl, rfl⟩ := List.map_eq_singleton_iff.mp same
  have up : piece ≠ ['.', '.'] := fun up => proper.2 (by rw [up])
  simp [File.Path.fileName?, components, pieces, component, up]

/-- The name that a path leads to is its file name. -/
theorem Leads.fileName? (h : w.Leads path l name) : File.Path.fileName? path = some name := by
  obtain ⟨_, before, _, whole, _⟩ := h.way
  exact fileName?_of_names whole h.proper

theorem mem_insertName {other : String} {names : List String}
    (mem : name ∈ Tree.insertName other names) : name = other ∨ name ∈ names := by
  induction names with
  | nil => exact .inl (List.mem_singleton.mp mem)
  | cons k rest ih =>
    rw [Tree.insertName] at mem
    split at mem
    · exact .inr mem
    · split at mem
      · exact List.mem_cons.mp mem
      · rcases List.mem_cons.mp mem with rfl | mem
        · exact .inr (.head _)
        · exact (ih mem).imp_right (.tail _)

/-- A name in a directory is the name of something. -/
theorem find?_of_mem_children {t : Tree} (mem : name ∈ t.children l) :
    (t.find? (l ++ [name])).isSome := by
  have listed : name ∈ t.nodes.filterMap fun e => Tree.childName? l e.1 := by
    unfold Tree.children at mem
    generalize t.nodes.filterMap (fun e => Tree.childName? l e.1) = names at mem ⊢
    induction names with
    | nil => cases mem
    | cons k rest ih =>
      rcases mem_insertName mem with rfl | mem
      · exact .head _
      · exact .tail _ (ih mem)
  obtain ⟨⟨m, n⟩, there, child⟩ := List.mem_filterMap.mp listed
  rw [Tree.childName?] at child
  split at child
  · rename_i below
    obtain ⟨rest, rfl⟩ := Tree.isBelow_iff.mp below
    rw [List.drop_left] at child
    split at child
    · cases child
      rw [Tree.find?_of_ne (by simp)]
      generalize t.nodes = nodes at there
      induction nodes with
      | nil => cases there
      | cons e rest ih =>
        obtain ⟨k, x⟩ := e
        rw [Tree.lookup]
        split
        · rfl
        · rename_i other
          rcases List.mem_cons.mp there with same | there
          · exact absurd (congrArg Prod.fst same).symm other
          · exact ih there
    · cases child
  · cases child

theorem isName_of_entriesAt (proper : w.files.Proper) {names : List String}
    (h : w.entriesAt path = .ok names) (mem : name ∈ names) : IsName name := by
  unfold entriesAt at h
  cases located : w.locate path with
  | error e => simp [located, bind, Except.bind] at h
  | ok l =>
    simp only [located, bind, Except.bind] at h
    split at h
    · cases h
      exact proper.named l name (find?_of_mem_children mem)
    · cases h

/-! ## What an operation that succeeds has changed -/

theorem write_eq_ok (h : w.write path content = .ok w') :
    ∃ l name executable, w.Leads path l name ∧ w.files.find? (l ++ [name]) ≠ some .dir ∧
      w' = { w with files := w.files.insert (l ++ [name]) (.file content executable) } := by
  unfold write at h
  cases located : w.locateNew path with
  | error e => simp [located, bind, Except.bind] at h
  | ok place =>
    cases place with
    | inl l => simp [located, bind, Except.bind] at h
    | inr place =>
      obtain ⟨l, name⟩ := place
      simp only [located, bind, Except.bind] at h
      have leads := leads_of_locateNew located
      split at h
      · cases h
      · rename_i executable file
        split at h
        · cases h
        · cases h
          exact ⟨l, name, executable, leads, by simp [file], rfl⟩
      · rename_i free
        split at h
        · cases h
        · cases h
          exact ⟨l, name, false, leads, by simp [free], rfl⟩

/-- The target of a copy is emptied first. -/
theorem write_of_copy (h : w.copy source target = .ok w') :
    ∃ w₁ content executable, w.write target [] = .ok w₁ ∧ w₁.bytesAt source = .ok content ∧
      w' = { w₁ with
        files := w₁.files.insert (w.placeOf target) (.file content executable) } := by
  unfold copy at h
  cases node : w.nodeAt source with
  | error e => simp [node, bind, Except.bind] at h
  | ok n =>
    cases n with
    | dir => simp [node, bind, Except.bind] at h
    | file old executable =>
      cases written : w.write target [] with
      | error e => simp [node, written, bind, Except.bind] at h
      | ok w₁ =>
        simp only [node, written, bind, Except.bind] at h
        split at h
        · cases h
        · rename_i m located
          split at h
          · cases h
          · rename_i content read
            cases h
            have here : w₁.here = w.here := by
              obtain ⟨_, _, _, _, _, rfl⟩ := write_eq_ok written
              rfl
            have place : m = w.placeOf target := by
              rw [locate_eq_ok located, placeOf_eq, placeOf_eq, here]
            exact ⟨w₁, content, executable, rfl, read, by rw [place]⟩

theorem copy_eq_ok (h : w.copy source target = .ok w') :
    ∃ l name content executable executable', w.Leads target l name ∧
      w.files.find? (l ++ [name]) ≠ some .dir ∧
      w' = { w with
        files := (w.files.insert (l ++ [name]) (.file [] executable')).insert (l ++ [name])
          (.file content executable) } := by
  obtain ⟨w₁, content, executable, written, -, rfl⟩ := write_of_copy h
  obtain ⟨l, name, executable', leads, noDir, rfl⟩ := write_eq_ok written
  exact ⟨l, name, content, executable, executable', leads, noDir, by rw [leads.placeOf]⟩

/-- A rename leaves everything where it is or moves it to a place outside of it. -/
theorem rename_eq_ok' (h : w.rename source target = .ok w') :
    ∃ k old l name, w.Leads source k old ∧ w.Leads target l name ∧
      (w' = w ∧ k ++ [old] = l ++ [name] ∨
        w' = { w with files := w.files.move (k ++ [old]) (l ++ [name]) } ∧
          ¬ Tree.isBelow (k ++ [old]) (l ++ [name]) = true ∧
          ¬ Tree.isBelow (l ++ [name]) (k ++ [old]) = true) := by
  unfold rename at h
  cases from' : w.locateNew source with
  | error e => simp [from', bind, Except.bind] at h
  | ok place =>
    cases to' : w.locateNew target with
    | error e => simp [from', to', bind, Except.bind] at h
    | ok place' =>
      simp only [from', to', bind, Except.bind] at h
      split at h
      case h_2 => cases h
      case h_1 k old l name =>
        refine ⟨k, old, l, name, leads_of_locateNew from', leads_of_locateNew to', ?_⟩
        split at h
        · cases h
        split at h
        · cases h
        split at h
        · cases h
        rename_i notInto
        split at h
        · cases h
        rename_i notOver
        split at h
        · rename_i same
          cases h
          exact .inl ⟨rfl, same⟩
        · rename_i apart
          have moved : w' = { w with files := w.files.move (k ++ [old]) (l ++ [name]) } := by
            split at h
            · cases h
              rfl
            · split at h
              · cases h
              · split at h
                · cases h
                  rfl
                · cases h
            · split at h
              · cases h
              · cases h
                rfl
          exact .inr ⟨moved, by simpa [apart] using notInto, by simpa [apart] using notOver⟩

/-! ## Guarded places -/

/-- The working directory stays, everything lies in a directory under a name, and every file at a
guarded place was there before. -/
structure Guards (guarded : Location → Prop) (w w' : World) : Prop where
  here : w'.here = w.here
  proper : w'.files.Proper
  kept : ∀ l, guarded l → ∀ content executable,
    w'.files.find? l = some (.file content executable) →
      w.files.find? l = some (.file content executable)

variable {guarded guarded' : Location → Prop}

namespace Guards

theorem trans {w'' : World} (h : Guards guarded w w') (h' : Guards guarded w' w'') :
    Guards guarded w w'' :=
  ⟨h'.here.trans h.here, h'.proper, fun l mem c x found => h.kept l mem c x (h'.kept l mem c x found)⟩

theorem mono (h : Guards guarded w w') (fewer : ∀ l, guarded' l → guarded l) :
    Guards guarded' w w' :=
  ⟨h.here, h.proper, fun l mem => h.kept l (fewer l mem)⟩

end Guards

section Operations

variable (proper : w.files.Proper)
include proper

theorem guards_self : Guards guarded w w := ⟨rfl, proper, fun _ _ _ _ found => found⟩

theorem guards_insert {n : Node} (dir : w.files.find? l = some .dir) (isName : IsName name)
    (keeps : w.files.find? (l ++ [name]) = some .dir → n = .dir)
    (free : n = .dir ∨ ¬ guarded (l ++ [name])) :
    Guards guarded w { w with files := w.files.insert (l ++ [name]) n } := by
  refine ⟨rfl, proper.insert dir isName keeps, fun m mem c x found => ?_⟩
  by_cases root : m = []
  · simp [root] at found
  rw [Tree.find?_insert root] at found
  split at found
  · rename_i same
    rcases free with rfl | free
    · cases found
    · exact absurd (same ▸ mem) free
  · exact found

theorem guards_write (h : w.write path content = .ok w') (free : ¬ guarded (w.placeOf path)) :
    Guards guarded w w' := by
  obtain ⟨l, name, executable, leads, noDir, rfl⟩ := write_eq_ok h
  exact guards_insert proper leads.dir_find? leads.isName (fun dir => absurd dir noDir)
    (.inr (leads.placeOf ▸ free))

theorem guards_create (h : w.create path content = .ok w') (free : ¬ guarded (w.placeOf path)) :
    Guards guarded w w' := by
  obtain ⟨l, name, leads, none, rfl⟩ := create_eq_ok h
  exact guards_insert proper leads.dir_find? leads.isName (by simp [none])
    (.inr (leads.placeOf ▸ free))

theorem guards_link (h : w.link source target = .ok w') (free : ¬ guarded (w.placeOf target)) :
    Guards guarded w w' := by
  obtain ⟨node, l, name, _, leads, none, rfl⟩ := link_eq_ok h
  exact guards_insert proper leads.dir_find? leads.isName (by simp [none])
    (.inr (leads.placeOf ▸ free))

theorem guards_copy (h : w.copy source target = .ok w') (free : ¬ guarded (w.placeOf target)) :
    Guards guarded w w' := by
  obtain ⟨l, name, content, x, y, leads, noDir, rfl⟩ := copy_eq_ok h
  rw [leads.placeOf] at free
  have emptied := guards_insert (n := .file [] y) proper leads.dir_find? leads.isName
    (fun dir => absurd dir noDir) (.inr free)
  refine emptied.trans (guards_insert (n := .file content x) emptied.proper ?_ leads.isName ?_
    (.inr free))
  · exact (keeps_insert noDir).dirs l leads.dir_find?
  · intro dir
    rw [Tree.find?_insert (by simp), if_pos rfl] at dir
    cases dir

theorem guards_makeDir (h : w.makeDir path = .ok w') : Guards guarded w w' := by
  obtain ⟨l, name, leads, none, rfl⟩ := makeDir_eq_ok h
  exact guards_insert proper leads.dir_find? leads.isName (fun _ => rfl) (.inl rfl)

theorem guards_makeDirsFrom (fuel : Nat) : Guards guarded w (w.makeDirsFrom path fuel).2 :=
  makeDirsFrom_maintains (fun _ _ _ before made => before.trans (guards_makeDir before.proper made))
    fuel (guards_self proper)

theorem guards_removeFile (h : w.removeFile path = .ok w') : Guards guarded w w' := by
  obtain ⟨l, _, noDir, rfl⟩ := removeFile_eq_ok h
  refine ⟨rfl, proper.erase noDir, fun m _ c x found => ?_⟩
  by_cases root : m = []
  · simp [root] at found
  rw [Tree.find?_erase root] at found
  split at found
  · cases found
  · exact found

theorem guards_eraseBelow : Guards guarded w { w with files := w.files.eraseBelow l } := by
  refine ⟨rfl, proper.eraseBelow, fun m _ c x found => ?_⟩
  by_cases root : m = []
  · simp [root] at found
  rw [Tree.find?_eraseBelow root] at found
  split at found
  · cases found
  · exact found

theorem guards_emptyDir (dir : w.files.find? l = some .dir) :
    Guards guarded w (w.emptyDir l) := by
  have erased : Guards guarded w { w with files := w.files.eraseBelow l } :=
    guards_eraseBelow proper
  unfold emptyDir
  obtain rfl | ⟨above, name, rfl⟩ := l.eq_nil_or_concat
  · exact erased
  · rw [List.concat_eq_append] at dir erased ⊢
    simp only [List.isEmpty_iff, List.append_eq_nil_iff, List.cons_ne_self, and_false, if_false]
    refine erased.trans (guards_insert erased.proper ?_ ?_ (fun _ => rfl) (.inl rfl))
    · by_cases root : above = []
      · simp [root]
      · have outside : ¬ Tree.isBelow (above ++ [name]) above = true := fun below => by
          have := List.IsPrefix.length_le (List.isPrefixOf_iff_prefix.mp below)
          rw [List.length_append, List.length_singleton] at this
          omega
        rw [Tree.find?_eraseBelow root, if_neg outside]
        exact proper.closed above name (by simp [dir])
    · exact proper.named above name (by simp [dir])

theorem guards_removeDir (path : String) : Guards guarded w (w.removeDir path).2 := by
  unfold removeDir
  split
  · exact guards_self proper
  · split
    · exact guards_self proper
    · rename_i l _ isDir
      have dir : w.files.find? l = some .dir := isDirAt_iff.mp (by simpa using isDir)
      split
      · exact guards_emptyDir proper dir
      · split
        · exact guards_emptyDir proper dir
        · split
          · exact guards_emptyDir proper dir
          · exact guards_eraseBelow proper

/-- A rename guards places where it puts no file. -/
theorem guards_rename (h : w.rename source target = .ok w')
    (free : ∀ rest, guarded (w.placeOf target ++ rest) → ∀ content executable,
      w.files.find? (w.placeOf source ++ rest) ≠ some (.file content executable)) :
    Guards guarded w w' := by
  obtain ⟨k, old, l, name, leads, leads', ⟨rfl, -⟩ | ⟨rfl, outside, -⟩⟩ := rename_eq_ok' h
  · exact guards_self proper
  · rw [leads.placeOf, leads'.placeOf] at free
    refine ⟨rfl, proper.move (by simp) leads'.dir_find? leads'.isName outside, ?_⟩
    intro m mem c x found
    by_cases root : m = []
    · simp [root] at found
    rw [Tree.find?_move (by simp) root] at found
    split at found
    · rename_i onTarget
      obtain ⟨rest, rfl⟩ := Tree.isBelow_iff.mp onTarget
      rw [List.drop_left] at found
      exact absurd found (free rest mem c x)
    · split at found
      · cases found
      · exact found

/-- A rename of what is no directory guards all places but the new one. -/
theorem guards_renameFile (h : w.rename source target = .ok w')
    (noDir : w.files.find? (w.placeOf source) ≠ some .dir)
    (free : ¬ guarded (w.placeOf target)) : Guards guarded w w' := by
  refine guards_rename proper h fun rest mem c x => ?_
  by_cases last : rest = []
  · subst last
    rw [List.append_nil] at mem
    exact absurd mem free
  · simp [proper.closed.find?_below noDir last]

end Operations

end World

end BoardDesign
