import JavaSource.Proofs.Sound.Expressions

/-!
# What is read is sound — statements

The body of a switch has rules only, or groups and labels only.
-/

namespace JavaSource

open Phrase

namespace Opened.Sound

variable {c : Category} {goal : Goal c} {o : Opened} (ho : o.Sound)

include ho

/-! ### Statements -/

theorem block : Makes Node.Sound o.block :=
  (Part.Sound.readAll ho.phrases _).map fun _ ha => .tree ⟨rfl, rfl⟩ ⟨ha, trivial⟩

theorem localVariables : Makes Node.Sound o.localVariables :=
  (ho.readFirst _ _).bind fun _ hb => (ho.readFirst _ _).bind fun _ hd =>
    (Node.check_makes _).bind fun _ h => ho.modifiers.bind fun _ ha =>
      .ok (.tree ⟨h, rfl⟩ ⟨ha, hb, hd, trivial⟩)

omit ho in
/-- What has been read of the head of a loop is sound. -/
theorem pushFor {head : ForHead} {p : Part} (hp : p.Sound)
    (h : head.init.Sound ∧ head.test.Sound ∧ head.update.Sound) :
    Makes (fun head => head.init.Sound ∧ head.test.Sound ∧ head.update.Sound) (head.push p) := by
  obtain ⟨hinit, htest, hupdate⟩ := h
  rw [ForHead.push]
  split
  · split <;> exact .ok ⟨hinit, htest, hupdate⟩
  · split
    · exact (hp.read _).bind fun _ h => .ok ⟨h, htest, hupdate⟩
    · exact (hp.read _).bind fun _ h => .ok ⟨hinit, htest, h⟩
    · split
      · exact (hp.read _).bind fun _ h => .ok ⟨hinit, h, hupdate⟩
      · exact .ok ⟨hinit, htest, hupdate⟩

theorem forInit : Makes Node.Sound o.forInit := by
  rw [Opened.forInit]
  split
  · exact ((ho.first? ‹_›).read _).map fun _ h => h
  · exact (Part.Sound.readAll ho.phrases _).map fun _ h => h

theorem forStmt : Makes Node.Sound o.forStmt :=
  ho.last.bind fun _ hlast => (hlast.read _).bind fun _ he =>
    (Makes.foldlM ⟨List.forall_mem_nil _, Node.Each.absent, Node.Each.nil⟩
      fun _ hhead p hp => pushFor (ho p hp) hhead).bind fun _ hhead =>
        .ok (.tree ⟨rfl, rfl⟩ ⟨hhead.1, hhead.2.1, hhead.2.2, he, trivial⟩)

theorem forEachStmt : Makes Node.Sound o.forEachStmt := by
  refine (ho.readFirst _ _).bind fun _ hb => (ho.readFirst _ _).bind fun _ hd => ?_
  split
  · exact ((ho.behind? ‹_›).read _).bind fun _ he => ho.last.bind fun _ hlast =>
      (hlast.read _).bind fun _ hf => ho.modifiers.bind fun _ ha =>
        .ok (.tree ⟨rfl, rfl⟩ ⟨ha, hb, hd, he, hf, trivial⟩)
  · exact .error _

theorem finalBlock : Makes Node.Sound o.finalBlock := by
  rw [Opened.finalBlock]
  split
  · exact ((ho.first? ‹_›).opened.readFirst _ _).map fun _ h => h
  · exact .ok Node.Each.absent

theorem tryStmt : Makes Node.Sound o.tryStmt :=
  (ho.readFirst _ _).bind fun _ ha => (ho.readAll _ _).bind fun _ hb =>
    ho.finalBlock.bind fun _ hd => Node.checked_makes fun h =>
      .tree ⟨h, rfl⟩ ⟨ha, hb, hd, trivial⟩

theorem tryResourcesStmt : Makes Node.Sound o.tryResourcesStmt :=
  (ho.first _).bind fun _ hspec => (hspec.1.opened.readAll _ _).bind fun _ ha =>
    (ho.readFirst _ _).bind fun _ hb => (ho.readAll _ _).bind fun _ hd =>
      ho.finalBlock.bind fun _ he => Node.checked_makes fun h =>
        .tree ⟨h, rfl⟩ ⟨ha, hb, hd, he, trivial⟩

theorem catchClause : Makes Node.Sound o.catchClause :=
  (ho.readFirst _ _).bind fun _ hb => (identifierAs _).bind fun _ hd =>
    (ho.readFirst _ _).bind fun _ he => (Node.check_makes _).bind fun _ h =>
      ho.modifiers.bind fun _ ha => .ok (.tree ⟨h, rfl⟩ ⟨ha, hb, hd, he, trivial⟩)

theorem tryResource : Makes Node.Sound o.tryResource := by
  rw [Opened.tryResource]
  split
  · exact ((ho.first? ‹_›).read _).map fun _ h => h
  · exact (ho.readFirst _ _).bind fun _ hb => (ho.readFirst _ _).bind fun _ hd =>
      ho.modifiers.bind fun _ ha => .ok (.tree ⟨rfl, rfl⟩ ⟨ha, hb, hd, trivial⟩)

/-! ### Switch blocks -/

omit ho in
theorem caseValue {item : Node .caseItem} (h : item.Sound) : (caseValue item).Sound := by
  cases item with
  | exprItem e => exact h
  | guardedPattern span pattern conditions =>
    cases pattern with
    | pattern span mods ty anns id =>
      obtain ⟨-, hpattern, -⟩ := Node.Each.parts h
      obtain ⟨-, -, hty, -, hid, -⟩ := Node.Each.parts hpattern
      exact .tree ⟨rfl, rfl⟩ ⟨hty, hid, trivial⟩

theorem switchLabels : Makes (fun labels => ∀ label ∈ labels, Node.Sound label) o.switchLabels := by
  rw [Opened.switchLabels]
  split
  · exact .ok (List.forall_mem_singleton.mpr (Node.Each.leaf ⟨rfl, rfl⟩))
  · refine (Makes.forall_mapM fun p hp => (ho.phrases p hp).read .caseItem).bind
      fun items ⟨_, hitems⟩ => .ok (List.forall_mem_map.mpr fun found hfound => ?_)
    obtain ⟨p, item⟩ := found
    have hitem := hitems item (List.of_mem_zip hfound).2
    exact Node.Each.tree ⟨rfl, rfl⟩ ⟨caseValue hitem, trivial⟩

theorem groupLabels : Makes (fun labels => ∀ label ∈ labels, Node.Sound label) o.groupLabels := by
  refine (Makes.forall_mapM fun label hlabel =>
    (ho.phrasesOf _ label hlabel).opened.switchLabels).bind fun labels ⟨_, h⟩ => .ok ?_
  intro label hlabel
  obtain ⟨ls, hls, hlabel⟩ := List.mem_flatten.mp hlabel
  exact h ls hls label hlabel

omit ho in
theorem groupsAndLabels {groups : List Part} (h : ∀ p ∈ groups, p.Sound)
    {labels : List (Node .switchLabel)} (hlabels : ∀ label ∈ labels, label.Sound) :
    Makes (fun found => found.1.Sound ∧ found.2.Sound) (groupsAndLabels labels groups) := by
  induction groups generalizing labels with
  | nil => exact .ok ⟨Node.Each.nil, Node.each_ofList hlabels⟩
  | cons group groups ih =>
    obtain ⟨hgroup, hgroups⟩ := List.forall_mem_cons.mp h
    refine hgroup.opened.groupLabels.bind fun own hown => hgroup.opened.groupBody.bind
      fun body hbody => ?_
    cases body with
    | nil => exact ih hgroups (List.forall_mem_append.mpr ⟨hlabels, hown⟩)
    | cons first rest =>
      have hnode : Makes Node.Sound
          (Node.switchGroup (some group.tree.span) (.ofList own) (.cons first rest)).checked :=
        Node.checked_makes fun h => .tree ⟨h, rfl⟩ ⟨Node.each_ofList hown, hbody, trivial⟩
      dsimp only
      split
      · exact .error _
      · exact hnode.bind fun _ hnode => (ih hgroups (List.forall_mem_nil _)).bind fun _ hfound =>
          .ok ⟨Node.Each.cons hnode hfound.1, hfound.2⟩

theorem switchBlock : Makes Node.Sound o.switchBlock := by
  rw [Opened.switchBlock]
  dsimp only
  split
  · exact .error _
  · split
    · exact ho.allRules.bind fun _ hd =>
        .ok (.tree ⟨rfl, if_neg (by simp [Node.isEmpty])⟩ ⟨Node.Each.nil, Node.Each.nil, hd, trivial⟩)
    · exact (groupsAndLabels (ho.phrasesOf _) (List.forall_mem_nil _)).bind fun _ h =>
        .ok (.tree ⟨rfl, rfl⟩ ⟨h.1, h.2, Node.Each.nil, trivial⟩)

/-! ### All statements -/

omit ho in
theorem localVariablesAt {n : Node .localVariables} (h : n.Sound) (span : Option Text.Span) :
    (n.localVariablesAt span).Sound := by
  cases n with
  | localVariables =>
    obtain ⟨hn, hparts⟩ := Node.Each.parts h
    exact .tree hn hparts

theorem stmt : Makes Node.Sound o.stmt := by
  unfold Opened.stmt
  split
  case h_1 => exact ho.block.map fun _ h => h
  case h_2 => exact (ho.readFirst _ _).bind fun _ h => .ok (localVariablesAt h _)
  case h_3 => exact ho.localVariables.map fun _ h => h
  case h_4 =>
    exact (ho.readFirst _ _).bind fun _ ha => Node.checked_makes fun h =>
      .tree ⟨h, rfl⟩ ⟨ha, trivial⟩
  case h_5 => exact .ok (Node.Each.leaf ⟨rfl, rfl⟩)
  case h_6 =>
    exact (identifierAs _).bind fun _ ha => (ho.readNth _ _).bind fun _ hb =>
      .ok (.tree ⟨rfl, rfl⟩ ⟨ha, hb, trivial⟩)
  case h_7 => exact (ho.readNth _ _).map fun _ ha => .tree ⟨rfl, rfl⟩ ⟨ha, trivial⟩
  case h_8 =>
    exact (ho.readNth _ _).bind fun _ ha => (ho.readNth _ _).bind fun _ hb =>
      (Part.Sound.readOption (fun _ => ho.getElem?) _).bind fun _ hd =>
        .ok (.tree ⟨rfl, rfl⟩ ⟨ha, hb, hd, trivial⟩)
  case h_9 =>
    exact (ho.readNth _ _).bind fun _ ha =>
      (Part.Sound.readOption (fun _ => ho.getElem?) _).bind fun _ hb =>
        .ok (.tree ⟨rfl, rfl⟩ ⟨ha, hb, trivial⟩)
  case h_10 =>
    exact (ho.readNth _ _).bind fun _ ha => (ho.readFirst _ _).bind fun _ hb =>
      Node.checked_makes fun h => .tree ⟨h, rfl⟩ ⟨ha, hb, trivial⟩
  case h_11 =>
    exact (ho.readNth _ _).bind fun _ ha => (ho.readNth _ _).bind fun _ hb =>
      .ok (.tree ⟨rfl, rfl⟩ ⟨ha, hb, trivial⟩)
  case h_12 =>
    exact (ho.readNth _ _).bind fun _ ha => (ho.readNth _ _).bind fun _ hb =>
      .ok (.tree ⟨rfl, rfl⟩ ⟨ha, hb, trivial⟩)
  case h_13 => exact ho.forStmt
  case h_14 => exact ho.forEachStmt
  case h_15 => exact .ok (.tree ⟨rfl, rfl⟩ ⟨ofOption_identifier?, trivial⟩)
  case h_16 => exact .ok (.tree ⟨rfl, rfl⟩ ⟨ofOption_identifier?, trivial⟩)
  case h_17 =>
    exact (Part.Sound.readOption (fun _ => ho.getElem?) _).map fun _ ha =>
      .tree ⟨rfl, rfl⟩ ⟨ha, trivial⟩
  case h_18 => exact (ho.readNth _ _).map fun _ ha => .tree ⟨rfl, rfl⟩ ⟨ha, trivial⟩
  case h_19 =>
    exact (ho.readNth _ _).bind fun _ ha => (ho.readFirst _ _).bind fun _ hb =>
      .ok (.tree ⟨rfl, rfl⟩ ⟨ha, hb, trivial⟩)
  case h_20 => exact ho.tryStmt
  case h_21 => exact ho.tryResourcesStmt
  case h_22 => exact (ho.readNth _ _).map fun _ ha => .tree ⟨rfl, rfl⟩ ⟨ha, trivial⟩
  case h_23 => exact .error _

end Opened.Sound

end JavaSource
