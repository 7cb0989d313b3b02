import Mathlib.Data.List.TakeWhile
import Rollout.Storage.Disk
import Rollout.Storage.Path

/-!
# Files that are replaced as a whole

What the keeping of a file relies on in the file operations, whatever fails: `Swaps`.  Letting
planned operations fail keeps it, and the operations on a disk have it for two files of the working
directory.
-/

namespace Rollout.Storage

/-! ### What is relied on -/

variable {σ : Type}

/-- What stands at each path: nothing, or something that reading makes of this. -/
abbrev Contents := String → Option (Except FileError (List UInt8))

/-- What saving relies on in the file operations, given what stands where in each state: only the
replacement of the file touches what stands at its path, and that either puts there what stands at
the temporary path or does nothing. -/
structure Swaps (files : Files (StateM σ)) (content : σ → Contents) (path temporary : String) :
    Prop where
  makeDirectory : ∀ u, content ((files.makeDirectory (Path.parent path)).run u).2 path =
    content u path
  write : ∀ bytes u, content ((files.write temporary bytes).run u).2 path = content u path
  written : ∀ {bytes u u'}, (files.write temporary bytes).run u = (.ok (), u') →
    content u' temporary = some (.ok bytes)
  renamed : ∀ {u u'}, (files.rename temporary path).run u = (.ok (), u') →
    content u' path = content u temporary
  kept : ∀ {u e u'}, (files.rename temporary path).run u = (.error e, u') →
    content u' path = content u path

/-- Whether the operations that look at a file tell what stands at its path. -/
structure Shows (files : Files (StateM σ)) (content : σ → Contents) (path : String) : Prop where
  isThere : ∀ u, (files.isThere path).run u = ((content u path).isSome, u)
  read : ∀ {u found}, content u path = some found → (files.read path).run u = (found, u)

/-! ### Planned failures -/

section Failures

variable {σ : Type}

def FileError.broken : FileError := ⟨"Input/output error", 5⟩

/-- Lets an operation fail if that is planned next; `rest` is what it does all the same. -/
def planned (operation rest : StateM σ (Except FileError Unit)) :
    StateM (List Bool × σ) (Except FileError Unit) := fun u =>
  match u.1 with
  | true :: plan => (.error .broken, plan, (rest.run u.2).2)
  | plan => ((operation.run u.2).1, plan.tail, (operation.run u.2).2)

/-- File operations of which those planned to fail do so.  A failed writing leaves a torn file. -/
def Files.failing (files : Files (StateM σ)) : Files (StateM (List Bool × σ)) where
  isThere path := fun u => (((files.isThere path).run u.2).1, u.1, ((files.isThere path).run u.2).2)
  read path := fun u => (((files.read path).run u.2).1, u.1, ((files.read path).run u.2).2)
  makeDirectory path := planned (files.makeDirectory path) (pure (.ok ()))
  write path content :=
    planned (files.write path content) (files.write path (content.take (content.length / 2)))
  rename source target := planned (files.rename source target) (pure (.ok ()))

variable {files : Files (StateM σ)} {content : σ → Contents}
  {path temporary : String}

theorem planned_cases (operation rest : StateM σ (Except FileError Unit)) (u : List Bool × σ) :
    ∃ plan, (planned operation rest).run u = (.error .broken, plan, (rest.run u.2).2) ∨
      (planned operation rest).run u =
        ((operation.run u.2).1, plan, (operation.run u.2).2) := by
  obtain ⟨plan, u⟩ := u
  cases plan with
  | nil => exact ⟨[], .inr rfl⟩
  | cons fails plan =>
    cases fails with
    | true => exact ⟨plan, .inl rfl⟩
    | false => exact ⟨plan, .inr rfl⟩

theorem planned_ok {operation rest : StateM σ (Except FileError Unit)} {u u' : List Bool × σ}
    (h : (planned operation rest).run u = (.ok (), u')) :
    operation.run u.2 = (.ok (), u'.2) := by
  obtain ⟨plan, hrun | hrun⟩ := planned_cases operation rest u
  · rw [hrun] at h
    cases h
  · rw [hrun] at h
    obtain ⟨hresult, hstate⟩ := Prod.mk.inj h
    rw [← hstate, ← hresult]
    rfl

theorem planned_error {operation rest : StateM σ (Except FileError Unit)} {u u' : List Bool × σ}
    {e : FileError} (h : (planned operation rest).run u = (.error e, u')) :
    u'.2 = (rest.run u.2).2 ∨ operation.run u.2 = (.error e, u'.2) := by
  obtain ⟨plan, hrun | hrun⟩ := planned_cases operation rest u
  · rw [hrun] at h
    cases h
    exact .inl rfl
  · rw [hrun] at h
    obtain ⟨hresult, hstate⟩ := Prod.mk.inj h
    rw [← hstate, ← hresult]
    exact .inr rfl

theorem Swaps.failing (h : Swaps files content path temporary) :
    Swaps files.failing (fun u => content u.2) path temporary where
  makeDirectory u := by
    obtain ⟨plan, hrun | hrun⟩ :=
      planned_cases (files.makeDirectory (Path.parent path)) (pure (.ok ())) u
    · rw [Files.failing, hrun]
      rfl
    · rw [Files.failing, hrun]
      exact h.makeDirectory u.2
  write bytes u := by
    obtain ⟨plan, hrun | hrun⟩ := planned_cases (files.write temporary bytes)
      (files.write temporary (bytes.take (bytes.length / 2))) u
    · rw [Files.failing, hrun]
      exact h.write _ u.2
    · rw [Files.failing, hrun]
      exact h.write bytes u.2
  written hok := h.written (planned_ok hok)
  renamed hok := h.renamed (planned_ok hok)
  kept herror := by
    rcases planned_error herror with hkept | hrun
    · rw [hkept]
      rfl
    · exact h.kept hrun

theorem Shows.failing (h : Shows files content path) :
    Shows files.failing (fun u => content u.2) path where
  isThere u := by
    have hrun : (files.failing.isThere path).run u = (((files.isThere path).run u.2).1, u.1,
        ((files.isThere path).run u.2).2) := rfl
    rw [hrun, h.isThere]
  read {u found} hcontent := by
    have hrun : (files.failing.read path).run u = (((files.read path).run u.2).1, u.1,
        ((files.read path).run u.2).2) := rfl
    rw [hrun, h.read hcontent]

end Failures

/-! ### Two files of the working directory -/

theorem trimReversed_of_not_mem {path : List Char} (h : '/' ∉ path) :
    Path.trimReversed path = path := by
  unfold Path.trimReversed
  split
  · exact absurd List.mem_cons_self h
  · exact absurd (List.mem_cons_of_mem _ List.mem_cons_self) h
  · rfl

theorem parent_of_not_mem {path : String} (h : '/' ∉ path.toList) : Path.parent path = "" := by
  have hreversed : '/' ∉ path.toList.reverse := by
    rw [List.mem_reverse]
    exact h
  have hnothing : path.toList.reverse.dropWhile (· ≠ '/') = [] := by
    rw [List.dropWhile_eq_nil_iff]
    intro x hx
    simp only [ne_eq, decide_not, Bool.not_eq_true', decide_eq_false_iff_not]
    rintro rfl
    exact hreversed hx
  rw [Path.parent, trimReversed_of_not_mem hreversed, hnothing]
  rfl

namespace Disk

/-- Whether a path is the name of a file in the working directory. -/
structure Plain (name : String) : Prop where
  single : '/' ∉ name.toList
  solid : name ≠ "" ∧ name ≠ "." ∧ name ≠ ".."

theorem partsOf_plain {name : String} (h : Plain name) : partsOf name = [name] := by
  rw [partsOf, List.splitOn_eq_singleton h.single, List.map_singleton, String.ofList_toList]

theorem locate_plain {name : String} (h : Plain name) (disk : Disk) :
    disk.locate name = match disk.node? disk.current with
      | none => .error .notFound
      | some (.file _) => .error .notDirectory
      | some .directory => .ok (disk.current ++ [name]) := by
  obtain ⟨hempty, hpoint, hpoints⟩ := h.solid
  have hroot : ¬name.toList.head? = some '/' := fun hhead =>
    h.single (List.mem_of_mem_head? hhead)
  have hisEmpty : ¬name.isEmpty = true := by
    rw [String.isEmpty_iff]
    exact hempty
  rw [locate, if_neg hisEmpty, if_neg hroot, partsOf_plain h, walk]
  cases disk.node? disk.current with
  | none => rfl
  | some node =>
    cases node with
    | file content => rfl
    | directory =>
      simp only [hempty, hpoint, hpoints, or_self, if_false]
      rfl

theorem full_append (parts : List String) (name : String) :
    full (parts ++ [name]) = full parts ++ ("/" ++ name) := by
  rw [full, List.map_append, String.join_append, List.map_singleton, String.join_cons,
    String.join_nil, String.append_empty]
  rfl

theorem full_append_ne {parts : List String} {a b : String} (h : a ≠ b) :
    full (parts ++ [a]) ≠ full (parts ++ [b]) := by
  rw [full_append, full_append]
  intro heq
  have hlists := congrArg String.toList heq
  simp only [String.toList_append, List.append_cancel_left_eq] at hlists
  exact h (String.toList_inj.1 hlists)

theorem full_ne_append (parts : List String) (name : String) :
    full parts ≠ full (parts ++ [name]) := by
  rw [full_append]
  intro heq
  have hlengths := congrArg String.length heq
  have hslash : ("/" : String).length = 1 := rfl
  rw [String.length_append, String.length_append, hslash] at hlengths
  omega

theorem node?_put (disk : Disk) (parts : List String) (node : Node) (other : List String) :
    (disk.put parts node).node? other =
      if other.isEmpty = false ∧ full other = full parts then some node else disk.node? other := by
  cases other with
  | nil => rfl
  | cons part rest =>
    have hfind : (disk.put parts node).node? (part :: rest) =
      (disk.nodes.insert (full parts) node).find? (full (part :: rest)) := rfl
    rw [hfind, NameMap.find?_insert]
    simp only [List.isEmpty_cons, true_and]
    rfl

def content (disk : Disk) : Contents := fun path =>
  if disk.isThere path then some (disk.read path) else none

theorem shows_files (path : String) : Shows files content path where
  isThere disk := by
    have hrun : (files.isThere path).run disk = (disk.isThere path, disk) := rfl
    rw [hrun, content]
    cases disk.isThere path with
    | true => rfl
    | false => rfl
  read {disk found} hcontent := by
    have hrun : (files.read path).run disk = (disk.read path, disk) := rfl
    unfold content at hcontent
    split at hcontent
    · cases hcontent
      exact hrun
    · cases hcontent

def found : Node → Except FileError (List UInt8)
  | .file content => .ok content
  | .directory => .error .isDirectory

theorem content_plain {name : String} (h : Plain name) (disk : Disk) :
    content disk name = match disk.node? disk.current with
      | some .directory => (disk.node? (disk.current ++ [name])).map found
      | _ => none := by
  rw [content, isThere, read, locate_plain h]
  cases disk.node? disk.current with
  | none => rfl
  | some node =>
    cases node with
    | file content => rfl
    | directory =>
      rcases Option.eq_none_or_eq_some (disk.node? (disk.current ++ [name])) with
        hnode | ⟨node, hnode⟩
      · simp only [bind, Except.bind, hnode]
        rfl
      · simp only [bind, Except.bind, hnode]
        cases node with
        | file content => rfl
        | directory => rfl

theorem node?_remove (disk : Disk) (parts other : List String) :
    (disk.remove parts).node? other =
      if other.isEmpty = false ∧ full other = full parts then none else disk.node? other := by
  cases other with
  | nil => rfl
  | cons part rest =>
    have hfind : (disk.remove parts).node? (part :: rest) =
      (disk.nodes.filter fun path _ => path ≠ full parts).find? (full (part :: rest)) := rfl
    have hnode : disk.node? (part :: rest) = disk.nodes.find? (full (part :: rest)) := rfl
    rw [hfind, NameMap.find?_filter, hnode]
    simp only [List.isEmpty_cons, true_and]
    split
    · rename_i heq
      cases disk.nodes.find? (full (part :: rest)) with
      | none => rfl
      | some node => simp [heq]
    · rename_i hne
      cases disk.nodes.find? (full (part :: rest)) with
      | none => rfl
      | some node => simp [hne]

section Plain

variable {name other : String} {disk : Disk}

theorem node?_put_current (node : Node) :
    (disk.put (disk.current ++ [name]) node).node? disk.current = disk.node? disk.current := by
  rw [node?_put, if_neg fun h => full_ne_append _ _ h.2]

theorem node?_remove_current :
    (disk.remove (disk.current ++ [name])).node? disk.current = disk.node? disk.current := by
  rw [node?_remove, if_neg fun h => full_ne_append _ _ h.2]

theorem node?_put_self (node : Node) :
    (disk.put (disk.current ++ [name]) node).node? (disk.current ++ [name]) = some node := by
  have hsome : (disk.current ++ [name]).isEmpty = false := by simp
  rw [node?_put, if_pos ⟨hsome, rfl⟩]

theorem node?_put_other (h : other ≠ name) (node : Node) :
    (disk.put (disk.current ++ [name]) node).node? (disk.current ++ [other]) =
      disk.node? (disk.current ++ [other]) := by
  rw [node?_put, if_neg fun heq => full_append_ne h heq.2]

theorem content_put_self (h : Plain name) (hhere : disk.node? disk.current = some .directory)
    (node : Node) :
    content (disk.put (disk.current ++ [name]) node) name = some (found node) := by
  have hcurrent : (disk.put (disk.current ++ [name]) node).current = disk.current := rfl
  rw [content_plain h, hcurrent, node?_put_current, hhere, node?_put_self]
  rfl

theorem content_put_other (h : Plain other) (hne : other ≠ name) (node : Node) :
    content (disk.put (disk.current ++ [name]) node) other = content disk other := by
  have hcurrent : (disk.put (disk.current ++ [name]) node).current = disk.current := rfl
  rw [content_plain h, content_plain h, hcurrent, node?_put_current, node?_put_other hne]

theorem write_plain (h : Plain name) (disk : Disk) (bytes : List UInt8) :
    (∃ e, disk.write name bytes = .error e) ∨
      (disk.node? disk.current = some .directory ∧
        disk.write name bytes = .ok (disk.put (disk.current ++ [name]) (.file bytes))) := by
  rw [write, locate_plain h]
  cases hhere : disk.node? disk.current with
  | none => exact .inl ⟨_, rfl⟩
  | some node =>
    cases node with
    | file content => exact .inl ⟨_, rfl⟩
    | directory =>
      simp only [bind, Except.bind, List.dropLast_concat, hhere]
      cases disk.node? (disk.current ++ [name]) with
      | none => exact .inr ⟨trivial, rfl⟩
      | some node =>
        cases node with
        | file content => exact .inr ⟨trivial, rfl⟩
        | directory => exact .inl ⟨_, rfl⟩

theorem rename_plain (hname : Plain name) (hother : Plain other) (disk : Disk) :
    (∃ e, disk.rename other name = .error e) ∨
      ∃ bytes, disk.node? disk.current = some .directory ∧
        disk.node? (disk.current ++ [other]) = some (.file bytes) ∧
        disk.rename other name = .ok
          ((disk.remove (disk.current ++ [other])).put (disk.current ++ [name]) (.file bytes)) := by
  rw [rename, locate_plain hname, locate_plain hother]
  cases hhere : disk.node? disk.current with
  | none => exact .inl ⟨_, rfl⟩
  | some node =>
    cases node with
    | file content => exact .inl ⟨_, rfl⟩
    | directory =>
      simp only [bind, Except.bind, List.dropLast_concat, hhere]
      cases hsource : disk.node? (disk.current ++ [other]) with
      | none => exact .inl ⟨_, rfl⟩
      | some node =>
        cases node with
        | directory => exact .inl ⟨_, rfl⟩
        | file bytes =>
          cases disk.node? (disk.current ++ [name]) with
          | none => exact .inr ⟨bytes, trivial, rfl, rfl⟩
          | some node =>
            cases node with
            | file content => exact .inr ⟨bytes, trivial, rfl, rfl⟩
            | directory => exact .inl ⟨_, rfl⟩

theorem makeDirectory_here (disk : Disk) : disk.makeDirectory "" = .ok disk := by
  have hparts : partsOf "" = [""] := rfl
  have hroot : ¬("" : String).toList.head? = some '/' := nofun
  rw [makeDirectory, if_neg hroot, hparts, makeAlong]
  rfl

theorem run_act_ok {operation : Disk → Except FileError Disk} {disk next : Disk}
    (h : operation disk = .ok next) : (act operation).run disk = (.ok (), next) := by
  unfold act
  dsimp only [StateT.run]
  rw [h]

theorem run_act_error {operation : Disk → Except FileError Disk} {disk : Disk} {e : FileError}
    (h : operation disk = .error e) : (act operation).run disk = (.error e, disk) := by
  unfold act
  dsimp only [StateT.run]
  rw [h]

/-- Two different files of the working directory, one of which takes the place of the other. -/
theorem swaps_files (hname : Plain name) (hother : Plain other) (hne : name ≠ other) :
    Swaps files content name other where
  makeDirectory disk := by
    have hrun : (files.makeDirectory (Path.parent name)).run disk = (.ok (), disk) := by
      rw [parent_of_not_mem hname.single]
      exact run_act_ok disk.makeDirectory_here
    rw [hrun]
  write bytes disk := by
    rcases write_plain hother disk bytes with ⟨e, hwrite⟩ | ⟨-, hwrite⟩
    · have hrun : (files.write other bytes).run disk = (.error e, disk) := run_act_error hwrite
      rw [hrun]
    · have hrun : (files.write other bytes).run disk =
        (.ok (), disk.put (disk.current ++ [other]) (.file bytes)) := run_act_ok hwrite
      rw [hrun]
      exact content_put_other hname hne _
  written {bytes disk disk'} hok := by
    rcases write_plain hother disk bytes with ⟨e, hwrite⟩ | ⟨hhere, hwrite⟩
    · have hrun : (files.write other bytes).run disk = (.error e, disk) := run_act_error hwrite
      rw [hrun] at hok
      cases hok
    · have hrun : (files.write other bytes).run disk =
        (.ok (), disk.put (disk.current ++ [other]) (.file bytes)) := run_act_ok hwrite
      rw [hrun] at hok
      cases hok
      exact content_put_self hother hhere _
  renamed {disk disk'} hok := by
    rcases rename_plain hname hother disk with ⟨e, hrename⟩ | ⟨bytes, hhere, hsource, hrename⟩
    · have hrun : (files.rename other name).run disk = (.error e, disk) := run_act_error hrename
      rw [hrun] at hok
      cases hok
    · have hrun : (files.rename other name).run disk = (.ok (), _) := run_act_ok hrename
      rw [hrun] at hok
      cases hok
      have hthere : (disk.remove (disk.current ++ [other])).node?
          (disk.remove (disk.current ++ [other])).current = some .directory := by
        rw [← hhere]
        exact node?_remove_current
      have htarget := content_put_self hname hthere (.file bytes)
      have hcontent : content disk other = some (.ok bytes) := by
        rw [content_plain hother, hhere, hsource]
        rfl
      rw [hcontent]
      exact htarget
  kept {disk e disk'} herror := by
    rcases rename_plain hname hother disk with ⟨e', hrename⟩ | ⟨bytes, -, -, hrename⟩
    · have hrun : (files.rename other name).run disk = (.error e', disk) := run_act_error hrename
      rw [hrun] at herror
      cases herror
      rfl
    · have hrun : (files.rename other name).run disk = (.ok (), _) := run_act_ok hrename
      rw [hrun] at herror
      cases herror

end Plain

end Disk

end Rollout.Storage
