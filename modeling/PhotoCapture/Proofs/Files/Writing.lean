import PhotoCapture.Files.Access

namespace PhotoCapture.Files

variable {files files' : Files} {directory other : Index} {name : Name} {node : Node}
  {place : Place} {content : Content} {path : String}

section Putting

theorem directory_put (files : Files) (directory : Index) (name : Name) (node : Node)
    (other : Index) : (files.put directory name node).directories[other]? =
      if directory = other then
        files.directories[other]?.map fun d =>
          { d with entries := (name, node) :: d.entries.filter (·.1 ≠ name) }
      else files.directories[other]? :=
  Array.getElem?_modify ..

theorem parent_put (files : Files) (directory : Index) (name : Name) (node : Node) (other : Index) :
    (files.put directory name node).parent other = files.parent other := by
  rw [parent, parent, directory_put]
  split <;> simp [Option.map_map, Function.comp_def]

theorem entries_put (files : Files) (directory : Index) (name : Name) (node : Node)
    (held : directory < files.directories.size) :
    (files.put directory name node).entries directory =
      (name, node) :: (files.entries directory).filter (·.1 ≠ name) := by
  rw [entries, entries, directory_put, if_pos rfl, Array.getElem?_eq_getElem held]
  rfl

theorem entries_put_of_ne (h : directory ≠ other) :
    (files.put directory name node).entries other = files.entries other := by
  rw [entries, entries, directory_put, if_neg h]

theorem size_put (files : Files) (directory : Index) (name : Name) (node : Node) :
    (files.put directory name node).directories.size = files.directories.size :=
  Array.size_modify ..

theorem lookUp_put_self {found : Option Node} (h : files.lookUp directory name = .ok found) :
    (files.put directory name node).lookUp directory name = .ok (some node) := by
  unfold lookUp at h ⊢
  rw [size_put]
  split at h
  next => cases h
  next short =>
    split at h
    next held => rw [if_neg short, if_pos held, entries_put files _ _ _ held, List.lookup_cons_self]
    next => cases h

theorem lookup_filter {name' : Name} (h : name ≠ name') (entries : List (Name × Node)) :
    (entries.filter (·.1 ≠ name)).lookup name' = entries.lookup name' := by
  induction entries with
  | nil => rfl
  | cons entry entries ih =>
    obtain ⟨first, node⟩ := entry
    by_cases same : first = name
    · subst same
      have differ : (name' == first) = false := beq_false_of_ne h.symm
      rw [List.filter_cons_of_neg (by simp), ih, List.lookup_cons, differ]
    · rw [List.filter_cons_of_pos (by simpa using same), List.lookup_cons, List.lookup_cons, ih]

theorem lookUp_put_of_ne {name' : Name} (h : directory = other → name ≠ name') :
    (files.put directory name node).lookUp other name' = files.lookUp other name' := by
  unfold lookUp
  rw [size_put]
  by_cases same : directory = other
  · subst same
    by_cases held : directory < files.directories.size
    · have differ : (name' == name) = false := beq_false_of_ne (h rfl).symm
      rw [entries_put files _ _ _ held, List.lookup_cons, differ]
      simp only [lookup_filter (h rfl)]
    · simp only [if_neg held]
  · rw [entries_put_of_ne same]

end Putting

section Writing

/-- A path leads where it led after something is put where no directory stands. -/
theorem walk_put {found : Option Node} (here : files.lookUp directory name = .ok found)
    (free : ∀ next, found ≠ some (.directory next)) {names : List Name}
    (h : files.walk other names = .ok place) :
    (files.put directory name node).walk other names = .ok place := by
  fun_induction walk files other names with
  | case1 other => exact h
  | case2 other names ih => rw [walk, if_pos rfl]; exact ih h
  | case3 other names dots ih => rw [walk, if_neg dots, if_pos rfl, parent_put]; exact ih h
  | case4 other name' dot dots => rw [walk, if_neg dot, if_neg dots, if_pos rfl]; exact h
  | case5 => cases h
  | case6 => cases h
  | case7 => cases h
  | case8 other name' names dot dots more next passed ih =>
    have differ : directory = other → name ≠ name' := by
      rintro rfl rfl
      rw [here] at passed
      exact free next (Except.ok.inj passed)
    rw [walk, if_neg dot, if_neg dots, if_neg more, lookUp_put_of_ne differ, passed]
    exact ih h

theorem locate_put {found : Option Node} (here : files.lookUp directory name = .ok found)
    (free : ∀ next, found ≠ some (.directory next)) (h : files.locate path = .ok place) :
    (files.put directory name node).locate path = .ok place := by
  unfold locate at h ⊢
  split at h
  next => cases h
  next noNul =>
    split at h
    next => cases h
    next short =>
      split at h
      next => cases h
      next some =>
        rw [if_neg noNul, if_neg short, if_neg some]
        exact walk_put here free h

/-- What a path that was written to leads to: a name where no directory stands. -/
theorem write_eq_ok (h : files.write path content = .ok files') :
    ∃ directory name found, files.locate path = .ok (.entry directory name) ∧
      meansDirectory path = false ∧ files.lookUp directory name = .ok found ∧
      (∀ next, found ≠ some (.directory next)) ∧
      files' = files.put directory name (.file content) := by
  unfold write at h
  cases located : files.locate path with
  | error problem => rw [located] at h; cases h
  | ok place =>
    rw [located] at h
    cases place with
    | dots directory => cases h
    | entry directory name =>
      cases means : meansDirectory path with
      | true => simp [means, bind, Except.bind, throw, throwThe, MonadExceptOf.throw] at h
      | false =>
        cases looked : files.lookUp directory name with
        | error problem => simp [means, looked, bind, Except.bind] at h
        | ok found =>
          simp only [means, looked, bind, Except.bind, pure, Except.pure] at h
          have put : (∀ next, found ≠ some (.directory next)) ∧
              files' = files.put directory name (.file content) := by
            rcases found with _ | _ | _
            · exact ⟨fun _ eq => (nomatch eq), (Except.ok.inj h).symm⟩
            · cases h
            · exact ⟨fun _ eq => (nomatch eq), (Except.ok.inj h).symm⟩
          exact ⟨directory, name, found, rfl, rfl, looked, put⟩

theorem read_write {text : String} (h : files.write path (.text text) = .ok files') :
    files'.read path = .ok text := by
  obtain ⟨directory, name, found, located, means, looked, free, rfl⟩ := write_eq_ok h
  unfold read find
  rw [locate_put looked free located]
  simp only [bind, Except.bind, lookUp_put_self looked, means]
  rfl

end Writing

end PhotoCapture.Files
