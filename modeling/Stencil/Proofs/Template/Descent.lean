import Stencil.Proofs.Template.Progress
import Stencil.Proofs.Template.Tiling

namespace Stencil

/-- The end that is made up behind the last token. -/
def Token.madeUp (ts : List Token) : Token :=
  match ts.getLast? with
  | some last => ⟨.eof, [], last.offset, last.offset, last.mark⟩
  | none => ⟨.eof, [], 0, 0, .origin⟩

/-- The token at an index, or the made up end if there is none. -/
def tokenAt (ts : List Token) (i : Nat) : Token :=
  ts[i]?.getD (.madeUp ts)

section Indices

variable {ts : List Token} {i : Nat}

theorem Token.kind_madeUp (ts : List Token) : (Token.madeUp ts).kind = .eof := by
  unfold Token.madeUp
  split <;> rfl

theorem Token.role_eq_last_iff {t : Token} : t.role = .last ↔ t.kind = .eof := by
  constructor
  · intro role
    unfold Token.role at role
    split at role
    · cases role
    · assumption
    · split at role
      · cases role
      · split at role
        · cases role
        · split at role <;> cases role
  · intro kind
    rw [Token.role, kind]

theorem tokenAt_of_lt (inside : i < ts.length) : tokenAt ts i = ts[i] := by
  rw [tokenAt, List.getElem?_eq_getElem inside, Option.getD_some]

/-- An index at which no end stands is one of a token. -/
theorem lt_length_of_tokenAt (inside : (tokenAt ts i).role ≠ .last) : i < ts.length := by
  by_contra behind
  refine inside (Token.role_eq_last_iff.mpr ?_)
  rw [tokenAt, List.getElem?_eq_none (Nat.le_of_not_lt behind), Option.getD_none, Token.kind_madeUp]

theorem role_ne_last_of_item {inline : Inline} {t : Token} {item : Item} (read : t.item inline = .ok item) :
    t.role ≠ .last :=
  fun last => Token.kind_of_item read (Token.role_eq_last_iff.mp last)

theorem drop_tokenAt (inside : (tokenAt ts i).role ≠ .last) : ts.drop i = tokenAt ts i :: ts.drop (i + 1) := by
  have within := lt_length_of_tokenAt inside
  rw [List.drop_eq_getElem_cons within, tokenAt_of_lt within]

end Indices

/-- The bodies of a conditional, as far as they have been read. -/
structure Bodies where
  body : List Node
  elseBody : Option (List Node)

/-- The next node is one of the last body. -/
def Bodies.add (b : Bodies) (n : Node) : Bodies :=
  match b.elseBody with
  | none => { b with body := b.body ++ [n] }
  | some second => { b with elseBody := some (second ++ [n]) }

mutual

/-- Reads the node that begins with the token at an index, and tells the index behind it. -/
def nodeAt (inline : Inline) (ts : List Token) (i : Nat) : Except SyntaxError (Node × { j : Nat // i < j }) :=
  match _read : (tokenAt ts i).item inline with
  | .error e => .error e
  | .ok (.node n) => .ok (n, ⟨i + 1, i.lt_succ_self⟩)
  | .ok (.openIf mark condition) => do
    let (n, j) ← conditionalFrom inline ts mark condition ⟨[], none⟩ (i + 1)
    return (n, ⟨j, Nat.lt_of_succ_lt j.2⟩)
  | .ok .otherwise | .ok .endIf =>
    .error ⟨.unknownDirective (String.ofList (trim (tokenAt ts i).value)), (tokenAt ts i).mark⟩
termination_by (ts.length - i, 0)
decreasing_by
  have within := lt_length_of_tokenAt (role_ne_last_of_item _read)
  exact .left _ _ (by omega)

/-- Reads what is left of a conditional from an index on, and tells the index behind its end. -/
def conditionalFrom (inline : Inline) (ts : List Token) (mark : Mark) (condition : Path) (b : Bodies) (i : Nat) :
    Except SyntaxError (Node × { j : Nat // i < j }) :=
  if _inside : (tokenAt ts i).role = .last then .error ⟨.unclosedIf, mark⟩
  else if (tokenAt ts i).role = .closes then
    .ok (.cond mark condition b.body b.elseBody, ⟨i + 1, i.lt_succ_self⟩)
  else if (tokenAt ts i).role = .otherwise then
    if b.elseBody.isSome then .error ⟨.duplicateElse, (tokenAt ts i).mark⟩
    else do
      let (n, j) ← conditionalFrom inline ts mark condition { b with elseBody := some [] } (i + 1)
      return (n, ⟨j, Nat.lt_of_succ_lt j.2⟩)
  else do
    let (n, next) ← nodeAt inline ts i
    let (n, j) ← conditionalFrom inline ts mark condition (b.add n) next
    return (n, ⟨j, Nat.lt_trans next.2 j.2⟩)
termination_by (ts.length - i, 1)
decreasing_by
  · have within := lt_length_of_tokenAt _inside
    exact .left _ _ (by omega)
  · exact .right _ Nat.one_pos
  · have within := lt_length_of_tokenAt _inside
    exact .left _ _ (by omega)

end

/-- Reads the nodes from an index on, behind some that have been read. -/
def nodesFrom (inline : Inline) (ts : List Token) (nodes : List Node) (i : Nat) : Except SyntaxError (List Node) :=
  if _inside : (tokenAt ts i).role = .last then .ok nodes
  else if (tokenAt ts i).role = .otherwise then .error ⟨.elseOutsideIf, (tokenAt ts i).mark⟩
  else if (tokenAt ts i).role = .closes then .error ⟨.endOutsideIf, (tokenAt ts i).mark⟩
  else do
    let (n, next) ← nodeAt inline ts i
    nodesFrom inline ts (nodes ++ [n]) next
termination_by ts.length - i
decreasing_by
  have within := lt_length_of_tokenAt _inside
  omega

/-- Reads all tokens up to the first end. -/
def descend (inline : Inline) (ts : List Token) : Except SyntaxError (List Node) :=
  nodesFrom inline ts [] 0

section Stacks

variable {inline : Inline} {ts : List Token} {i : Nat} {t : Token} {d : Draft}

theorem Draft.outcome_tokenAt (last : (tokenAt ts i).role = .last) : d.outcome inline (ts.drop i) = d.finish := by
  rcases Nat.lt_or_ge i ts.length with within | behind
  · rw [tokenAt_of_lt within] at last
    rw [List.drop_eq_getElem_cons within, Draft.outcome_last (Token.role_eq_last_iff.mp last)]
  · rw [List.drop_eq_nil_of_le behind]
    rfl

theorem Draft.outcome_cons (inside : t.role ≠ .last) :
    d.outcome inline (t :: ts) = t.item inline >>= fun i => d.add t.mark i >>= fun d => d.outcome inline ts := by
  rw [Draft.outcome, Draft.addTokens, if_neg fun eof => inside (Token.role_eq_last_iff.mpr eof)]
  cases t.item inline with
  | error e => rfl
  | ok i =>
    change (d.add t.mark i >>= fun d => d.addTokens inline ts) >>= Draft.finish = _
    rw [bind_assoc]
    rfl

theorem Token.item_of_otherwise (role : t.role = .otherwise) : t.item inline = .ok .otherwise := by
  have formed : t.IsWellFormed inline := .of_otherwise role
  have item := formed.item
  rwa [role] at item

theorem Token.item_of_closes (role : t.role = .closes) : t.item inline = .ok .endIf := by
  have formed : t.IsWellFormed inline := .of_closes role
  have item := formed.item
  rwa [role] at item

/-- The draft of a template in a conditional whose bodies have been read so far. -/
def Bodies.draft (b : Bodies) (before : List Node) (mark : Mark) (condition : Path) (opened : List OpenIf) : Draft :=
  match b.elseBody with
  | none => ⟨b.body.reverse, ⟨before, mark, condition, none⟩ :: opened⟩
  | some second => ⟨second.reverse, ⟨before, mark, condition, some b.body⟩ :: opened⟩

section Conditionals

variable {b : Bodies} {before : List Node} {mark : Mark} {condition : Path} {opened : List OpenIf}

theorem Bodies.draft_add (b : Bodies) (n : Node) :
    { b.draft before mark condition opened with nodes := n :: (b.draft before mark condition opened).nodes } =
      (b.add n).draft before mark condition opened := by
  obtain ⟨body, _ | second⟩ := b <;> simp [draft, add]

theorem Bodies.finish_draft : (b.draft before mark condition opened).finish = .error ⟨.unclosedIf, mark⟩ := by
  obtain ⟨body, _ | second⟩ := b <;> rfl

theorem Bodies.draft_endIf (m : Mark) :
    (b.draft before mark condition opened).add m .endIf =
      .ok ⟨.cond mark condition b.body b.elseBody :: before, opened⟩ := by
  obtain ⟨body, _ | second⟩ := b <;> simp [draft, Draft.add]

theorem Bodies.draft_otherwise (m : Mark) :
    (b.draft before mark condition opened).add m .otherwise =
      if b.elseBody.isSome then .error ⟨.duplicateElse, m⟩
      else .ok ({ b with elseBody := some [] }.draft before mark condition opened) := by
  obtain ⟨body, _ | second⟩ := b <;> simp [draft, Draft.add]

end Conditionals

mutual

/-- A node that is read by descent is one node more in the draft. -/
theorem outcome_nodeAt (inline : Inline) (ts : List Token) (i : Nat) (d : Draft)
    (inside : (tokenAt ts i).role ≠ .last) (opens : (tokenAt ts i).role ≠ .closes)
    (starts : (tokenAt ts i).role ≠ .otherwise) :
    d.outcome inline (ts.drop i) = nodeAt inline ts i >>= fun r =>
      Draft.outcome inline { d with nodes := r.1 :: d.nodes } (ts.drop r.2) := by
  rw [drop_tokenAt inside, Draft.outcome_cons inside, nodeAt]
  split
  · rename_i e failed
    rw [failed]
    rfl
  · rename_i n read
    rw [read]
    rfl
  · rename_i mark condition read
    rw [read]
    have within := lt_length_of_tokenAt inside
    have rest := outcome_conditionalFrom inline ts mark condition ⟨[], none⟩ (i + 1) d.nodes d.opened
    change Draft.outcome inline (Bodies.draft ⟨[], none⟩ d.nodes mark condition d.opened) _ = _
    rw [rest, bind_assoc]
    rfl
  · rename_i read
    exact absurd (Token.item_mirrors read) starts
  · rename_i read
    exact absurd (Token.item_mirrors read) opens
termination_by (ts.length - i, 0)

/-- A conditional that is read by descent closes the innermost open one of the draft. -/
theorem outcome_conditionalFrom (inline : Inline) (ts : List Token) (mark : Mark) (condition : Path) (b : Bodies)
    (i : Nat) (before : List Node) (opened : List OpenIf) :
    (b.draft before mark condition opened).outcome inline (ts.drop i) =
      conditionalFrom inline ts mark condition b i >>= fun r =>
        Draft.outcome inline ⟨r.1 :: before, opened⟩ (ts.drop r.2) := by
  rw [conditionalFrom]
  split
  · rename_i last
    rw [Draft.outcome_tokenAt last, Bodies.finish_draft]
    rfl
  rename_i inside
  split
  · rename_i closes
    rw [drop_tokenAt inside, Draft.outcome_cons inside, Token.item_of_closes closes]
    change (Draft.add _ _ _ >>= _) = _
    rw [Bodies.draft_endIf]
    rfl
  rename_i opens
  split
  · rename_i otherwise
    rw [drop_tokenAt inside, Draft.outcome_cons inside, Token.item_of_otherwise otherwise]
    change (Draft.add _ _ _ >>= _) = _
    rw [Bodies.draft_otherwise]
    split
    · rfl
    · have within := lt_length_of_tokenAt inside
      have rest := outcome_conditionalFrom inline ts mark condition { b with elseBody := some [] } (i + 1) before opened
      rw [bind_assoc]
      exact rest
  · rename_i starts
    rw [outcome_nodeAt inline ts i _ inside opens starts, bind_assoc]
    congr
    funext r
    have further := r.2.property
    have within := lt_length_of_tokenAt inside
    rw [Bodies.draft_add, outcome_conditionalFrom inline ts mark condition (b.add r.1) r.2 before opened, bind_assoc]
    rfl
termination_by (ts.length - i, 1)

end

/-- The nodes that the loop at the top reads are those of a draft in which nothing is open. -/
theorem outcome_nodesFrom (inline : Inline) (ts : List Token) (nodes : List Node) (i : Nat) :
    Draft.outcome inline ⟨nodes.reverse, []⟩ (ts.drop i) = nodesFrom inline ts nodes i := by
  fun_induction nodesFrom inline ts nodes i with
  | case1 nodes i last =>
    rw [Draft.outcome_tokenAt last, Draft.finish, List.reverse_reverse]
  | case2 nodes i inside otherwise =>
    rw [drop_tokenAt inside, Draft.outcome_cons inside, Token.item_of_otherwise otherwise]
    rfl
  | case3 nodes i inside _ closes =>
    rw [drop_tokenAt inside, Draft.outcome_cons inside, Token.item_of_closes closes]
    rfl
  | case4 nodes i inside starts opens ih =>
    rw [outcome_nodeAt inline ts i _ inside opens starts]
    congr
    funext r
    have rest := ih r.1 r.2
    rw [List.reverse_concat] at rest
    exact rest

theorem descend_eq_parse (inline : Inline) (ts : List Token) : descend inline ts = parse inline ts :=
  (outcome_nodesFrom inline ts [] 0).symm

end Stacks

section Ends

variable {r : Region} {c after : Cursor} {t : Token} {ts : List Token} {n : Nat}

/-- Asks so many times for the next token. -/
def nextTokens (r : Region) : Nat → Scan (List Token)
  | 0 => return []
  | n + 1 => do
    let t ← Token.next r
    let ts ← nextTokens r n
    return t :: ts

theorem nextTokens_succ (first : Token.next r c = .ok t after) {last : Cursor}
    (rest : nextTokens r n after = .ok ts last) : nextTokens r (n + 1) c = .ok (t :: ts) last := by
  rw [nextTokens, Scan.bind_of_ok first, Scan.bind_of_ok rest]
  rfl

/-- A cursor that has come to the end stays there, and each time the same end is read. -/
theorem nextTokens_end (done : c.rest = []) : nextTokens r n c = .ok (List.replicate n (.eof c)) c := by
  induction n with
  | zero => rfl
  | succ n ih =>
    have first : Token.next r c = .ok (.eof c) c := by rw [Token.next, done]
    exact nextTokens_succ first ih

theorem Cursor.finish_of_nil (done : c.rest = []) : c.finish = c := by
  rw [finish, done]
  obtain ⟨rest, offset, mark⟩ := c
  rfl

/-- Moving as far as the stretch reaches, or further, is moving to its end. -/
theorem Cursor.advance_of_length_le (reaches : c.rest.length ≤ n) : c.advance n = c.finish := by
  rw [finish, advance, advance, List.take_of_length_le reaches, List.take_length, List.drop_of_length_le reaches,
    List.drop_length]

theorem Cursor.finish_advance (c : Cursor) (n : Nat) : (c.advance n).finish = c.finish := by
  rw [finish, advance_advance]
  refine advance_of_length_le ?_
  rw [advance_rest, List.length_drop]
  omega

/-- The tokens are what is read when one asks for the next token again and again, and where they are used up their
last one, the end, is read once more each time. -/
theorem nextTokens_of_tokenize (read : tokenize r c = .ok ts) :
    ts = ts.dropLast ++ [.eof c.finish] ∧
      ∀ n, nextTokens r (ts.length + n) c = .ok (ts ++ List.replicate n (.eof c.finish)) c.finish := by
  fun_induction tokenize r c generalizing ts with
  | case1 c done =>
    cases read
    rw [Cursor.finish_of_nil done]
    refine ⟨rfl, fun n => ?_⟩
    rw [nextTokens_end done, List.length_singleton, Nat.add_comm]
    rfl
  | case2 => cases read
  | case3 c more t after first ih =>
    cases rest : tokenize r after with
    | error e =>
      rw [rest] at read
      cases read
    | ok us =>
      rw [rest] at read
      cases read
      obtain ⟨ends, asks⟩ := ih rest
      obtain ⟨m, rfl⟩ := next_moves first
      rw [Cursor.finish_advance] at ends asks
      refine ⟨?_, fun n => ?_⟩
      · have filled : us ≠ [] := by
          rw [ends]
          exact List.concat_ne_nil _ _
        change t :: us = (t :: us).dropLast ++ _
        rw [List.dropLast_cons_of_ne_nil filled, List.cons_append, ← ends]
      · rw [List.length_cons, Nat.add_right_comm]
        exact nextTokens_succ first (asks n)

end Ends

/-- A template can do without the end of its tokens: without it the same nodes are built, or the same fault is found at
the same place, by the loop with a stack and by descent alike. And whoever goes on asking for tokens at the end of a
stretch is given the same end again and again, and the cursor stays where it is. -/
theorem parse_withoutEnd {r : Region} {c : Cursor} {tokens : List Token} (read : tokenize r c = .ok tokens)
    (inline : Inline) :
    tokens = tokens.dropLast ++ [.eof c.finish] ∧ parse inline tokens.dropLast = parse inline tokens ∧
      descend inline tokens = parse inline tokens ∧ descend inline tokens.dropLast = parse inline tokens ∧
      (∀ n, nextTokens r (tokens.length + n) c = .ok (tokens ++ List.replicate n (.eof c.finish)) c.finish) ∧
      ∀ (r' : Region) (d : Cursor) (n : Nat), d.atEnd → nextTokens r' n d = .ok (List.replicate n (.eof d)) d := by
  obtain ⟨ends, asks⟩ := nextTokens_of_tokenize read
  have inner : Token.inner tokens = tokens.dropLast := by
    obtain ⟨e, -, split⟩ := tokenize_inner read
    exact List.dropLast_concat.symm.trans (congrArg List.dropLast split.symm)
  have same : parse inline tokens.dropLast = parse inline tokens := by rw [parse_inner read, inner]
  have same' : descend inline tokens.dropLast = parse inline tokens := (descend_eq_parse inline _).trans same
  exact ⟨ends, same, descend_eq_parse inline tokens, same', asks, fun r' d n done =>
    nextTokens_end (List.isEmpty_iff.mp done)⟩

/-- The tokens of a source that stops in the second body of a conditional inside another one. -/
def cutTokens : List Token :=
  [⟨.directive, "if x".toList, 1, 5, ⟨1, 1⟩⟩, ⟨.text, "a".toList, 6, 7, ⟨1, 7⟩⟩,
    ⟨.directive, "if y".toList, 8, 12, ⟨1, 8⟩⟩, ⟨.directive, "else".toList, 14, 18, ⟨1, 14⟩⟩,
    ⟨.text, "\nb".toList, 19, 21, ⟨1, 20⟩⟩, ⟨.eof, [], 21, 21, ⟨2, 2⟩⟩]

theorem parse_withoutEnd_of_cut :
    let c : Cursor := .ofText "$if x$a$if y$$else$\nb".toList
    tokenize .page c = .ok cutTokens ∧ c.finish.atEnd ∧
      parse (compileStretch .block) cutTokens = .error ⟨.unclosedIf, ⟨1, 8⟩⟩ ∧
      parse (compileStretch .block) cutTokens.dropLast = .error ⟨.unclosedIf, ⟨1, 8⟩⟩ ∧
      descend (compileStretch .block) cutTokens.dropLast = .error ⟨.unclosedIf, ⟨1, 8⟩⟩ ∧
      nextTokens .page 8 c = .ok (cutTokens ++ [⟨.eof, [], 21, 21, ⟨2, 2⟩⟩, ⟨.eof, [], 21, 21, ⟨2, 2⟩⟩]) c.finish ∧
      nextTokens .page 1 c.finish = .ok [⟨.eof, [], 21, 21, ⟨2, 2⟩⟩] c.finish := by
  intro c
  have read : tokenize .page c = .ok cutTokens := by decide +kernel
  have cut : parse (compileStretch .block) cutTokens = .error ⟨.unclosedIf, ⟨1, 8⟩⟩ := by rfl
  obtain ⟨-, same, -, descends, asks, stays⟩ := parse_withoutEnd read (compileStretch .block)
  exact ⟨read, by decide, cut, same.trans cut, descends.trans cut, asks 2, stays .page c.finish 1 (by decide)⟩

end Stencil
