import CanonicalSql.Proofs.Reading.Tail

/-!
# Reading windows

The `WINDOW` clause with its definitions. Within a definition the clauses are told by their
keywords as those of a query are, and the bounds of a frame by the direction that ends
them.
-/
namespace CanonicalSql.Parse

variable {limit bound depth : Nat} {phrases : Phrases} {rest : List Kind}

/-! ## Bounds -/

theorem preceding_reads :
    Reads limit True boundDirection depth (.keyword .PRECEDING :: rest) (· = .preceding) depth
      rest :=
  (takeWord_yes .PRECEDING).step (.pure trivial rfl)

theorem following_reads :
    Reads limit True boundDirection depth (.keyword .FOLLOWING :: rest) (· = .following) depth
      rest :=
  (takeWord_no (by simp)).step ((takeWord_yes .FOLLOWING).step (.pure trivial rfl))

/-- A bound that lies at a distance, or at none that is bounded, in the direction that the
word says. -/
theorem distance_reads (reads : phrases.ReadBack limit bound) {value : Option Expr}
    {kind : FrameBoundKind} {word : Keyword} (formed : Expr.OptionFormed value)
    (fits : 2 * (Piece.kinds (Canonical.ofDistance value)).length + 1 ≤ bound)
    (room : depth + 2 * Outline.depthAll (Outline.ofOption value) ≤ capOf limit + 1)
    (quiet : (Kind.keyword word).isQuiet = true)
    (direction : Reads limit True boundDirection depth (.keyword word :: rest) (· = kind) depth
      rest) :
    Reads limit (Outline.AllReadable (Outline.ofOption value)) (frameBound phrases) depth
      (Piece.kinds (Canonical.ofDistance value) ++ .keyword word :: rest)
      (fun it => it.erase = ⟨kind, Expr.eraseOption value, default⟩) depth rest := by
  refine .still here_still fun start => ?_
  cases value with
  | none =>
    refine (takeWord_yes .UNBOUNDED).step (direction.step ?_)
    refine .still (spanFrom_still start) fun _ => ?_
    exact .pure (by simp [Outline.ofOption]) (by simp [FrameBound.erase, Expr.eraseOption])
  | some value =>
    have text : Piece.kinds (Canonical.ofDistance (some value)) = value.tokens := by
      simp [Canonical.ofDistance]
    rw [text] at fits ⊢
    simp only [Outline.ofOption, Outline.plain_expr, Outline.depthAll_cons] at room
    simp only [Outline.ofOption, Outline.plain_expr, Outline.allReadable_cons,
      Outline.allReadable_nil, and_true]
    refine (takeWord_no (Expr.lead_ne formed _ rfl (by simp))).step ?_
    refine (atWordBefore_no fun isCurrent => absurd isCurrent
      (Expr.lead_ne formed _ rfl (by simp))).step ?_
    refine (expression_reads reads formed fits (by omega) (by exact quiet)).bind id
      fun holds e same => direction.step ?_
    refine .still (spanFrom_still start) fun _ => .pure holds ?_
    simp [FrameBound.erase, Expr.eraseOption, same]

theorem frameBound_reads (reads : phrases.ReadBack limit bound) {edge : FrameBound}
    (formed : edge.Formed)
    (fits : 2 * (Piece.kinds (Canonical.ofFrameBound edge)).length ≤ bound + 1)
    (room : depth + 2 * Outline.depthAll (Outline.belowFrameBound edge) ≤ capOf limit + 1) :
    Reads limit (Outline.AllReadable (Outline.belowFrameBound edge)) (frameBound phrases) depth
      (Piece.kinds (Canonical.ofFrameBound edge) ++ rest) (fun it => it.erase = edge.erase)
      depth rest := by
  obtain ⟨kind, value, span⟩ := edge
  cases kind with
  | currentRow =>
    obtain rfl : value = none := formed.2 rfl
    have text : Piece.kinds (Canonical.ofFrameBound ⟨.currentRow, none, span⟩) ++ rest =
        .keyword .CURRENT :: .keyword .ROW :: rest := by
      simp [Canonical.ofFrameBound]
    rw [text]
    refine .still here_still fun start => (takeWord_no (by simp)).step ?_
    refine (atWordBefore_yes (by simp)).step (advance_reads.after fun _ _ => ?_)
    refine advance_reads.after fun _ _ => .still (spanFrom_still start) fun _ => ?_
    exact .pure (by simp [Outline.belowFrameBound, Outline.ofOption]) (by simp [FrameBound.erase])
  | preceding =>
    have text : Piece.kinds (Canonical.ofFrameBound ⟨.preceding, value, span⟩) =
        Piece.kinds (Canonical.ofDistance value) ++ [.keyword .PRECEDING] := by
      simp [Canonical.ofFrameBound]
    rw [text] at fits ⊢
    simp only [List.length_append, List.length_singleton] at fits
    rw [List.append_assoc]
    exact distance_reads reads formed.1 (by omega) room rfl preceding_reads
  | following =>
    have text : Piece.kinds (Canonical.ofFrameBound ⟨.following, value, span⟩) =
        Piece.kinds (Canonical.ofDistance value) ++ [.keyword .FOLLOWING] := by
      simp [Canonical.ofFrameBound]
    rw [text] at fits ⊢
    simp only [List.length_append, List.length_singleton] at fits
    rw [List.append_assoc]
    exact distance_reads reads formed.1 (by omega) room rfl following_reads

/-- A bound does not begin like a pair of bounds. -/
theorem lead_frameBound {edge : FrameBound} (formed : edge.Formed) (more : List Kind) :
    lead (Piece.kinds (Canonical.ofFrameBound edge) ++ more) ≠ .keyword .BETWEEN := by
  obtain ⟨kind, value, span⟩ := edge
  have distance : ∀ others,
      lead (Piece.kinds (Canonical.ofDistance value) ++ others) ≠ .keyword .BETWEEN := by
    intro others
    cases value with
    | none => simp [Canonical.ofDistance]
    | some value => exact Expr.lead_ne formed.1 others rfl (by simp)
  cases kind with
  | currentRow => simp [Canonical.ofFrameBound]
  | preceding | following =>
    simp only [Canonical.ofFrameBound, Piece.kinds_append, List.append_assoc]
    exact distance _

/-! ## Frames -/

theorem frameExclusion_reads (exclusion : FrameExclusion) :
    Reads limit True optionalExclusion depth (exclusion.words.map .keyword ++ rest)
      (· = some exclusion) depth rest := by
  have inside : ∀ words, exclusion.words = .EXCLUDE :: words →
      Reads limit True frameExclusion depth (words.map .keyword ++ rest) (· = exclusion) depth
        rest := by
    rintro words isWords
    refine word?_looks.reads.step ?_
    cases exclusion with
    | currentRow =>
      cases isWords
      exact advance_reads.after fun _ _ => (expectWord_reads .ROW).step (.pure trivial rfl)
    | group =>
      cases isWords
      exact advance_reads.after fun _ _ => .pure trivial rfl
    | ties =>
      cases isWords
      exact advance_reads.after fun _ _ => .pure trivial rfl
    | noOthers =>
      cases isWords
      exact advance_reads.after fun _ _ => (expectWord_reads .OTHERS).step (.pure trivial rfl)
  have isWords : exclusion.words = .EXCLUDE :: exclusion.words.tail := by
    cases exclusion <;> rfl
  rw [isWords]
  exact (takeWord_yes .EXCLUDE).step ((inside _ isWords).step (.pure trivial rfl))

theorem optionalExclusion_reads (exclusion : Option FrameExclusion)
    (stops : lead rest ≠ .keyword .EXCLUDE) :
    Reads limit True optionalExclusion depth
      (Piece.kinds (Canonical.ofExclusion exclusion) ++ rest) (· = exclusion) depth rest := by
  cases exclusion with
  | none => exact (takeWord_no stops).step (.pure trivial rfl)
  | some exclusion =>
    have text : Piece.kinds (Canonical.ofExclusion (some exclusion)) =
        exclusion.words.map .keyword := by
      simp [Canonical.ofExclusion, Canonical.optional]
    rw [text]
    exact frameExclusion_reads exclusion

theorem frameUnit_reads (unit : FrameUnit) :
    Reads limit True frameUnit depth (.keyword unit.word :: rest) (· = some unit) depth rest := by
  cases unit with
  | rows => exact (takeWord_yes .ROWS).step (.pure trivial rfl)
  | range =>
    exact (takeWord_no (by simp [FrameUnit.word])).step
      ((takeWord_yes .RANGE).step (.pure trivial rfl))
  | groups =>
    exact (takeWord_no (by simp [FrameUnit.word])).step
      ((takeWord_no (by simp [FrameUnit.word])).step
        ((takeWord_yes .GROUPS).step (.pure trivial rfl)))

/-- The tokens of the bounds of a frame. -/
def boundTokens (start : FrameBound) : Option FrameBound → List Kind
  | none => Piece.kinds (Canonical.ofFrameBound start)
  | some stop => .keyword .BETWEEN :: (Piece.kinds (Canonical.ofFrameBound start) ++
      .keyword .AND :: Piece.kinds (Canonical.ofFrameBound stop))

/-- What is below the bounds of a frame. -/
def belowBounds (start : FrameBound) : Option FrameBound → List Outline
  | none => Outline.belowFrameBound start
  | some stop => Outline.belowFrameBound start ++ Outline.belowFrameBound stop

theorem frameBounds_reads (reads : phrases.ReadBack limit bound) {start : FrameBound}
    {stop : Option FrameBound} (startFormed : start.Formed)
    (stopFormed : FrameBound.OptionFormed stop)
    (fits : 2 * (boundTokens start stop).length ≤ bound + 1)
    (room : depth + 2 * Outline.depthAll (belowBounds start stop) ≤ capOf limit + 1) :
    Reads limit (Outline.AllReadable (belowBounds start stop)) (frameBounds phrases) depth
      (boundTokens start stop ++ rest)
      (fun them => them.1.erase = start.erase ∧
        FrameBound.eraseOption them.2 = FrameBound.eraseOption stop) depth rest := by
  cases stop with
  | none =>
    refine (takeWord_no (lead_frameBound startFormed rest)).step ?_
    exact (frameBound_reads reads startFormed fits room).bind id
      fun holds it same => .pure holds ⟨same, rfl⟩
  | some stop =>
    simp only [boundTokens, List.length_cons, List.length_append] at fits
    simp only [belowBounds, Outline.depthAll_append] at room
    simp only [boundTokens, List.cons_append, List.append_assoc, belowBounds,
      Outline.allReadable_append]
    refine (takeWord_yes .BETWEEN).step ?_
    refine (frameBound_reads reads startFormed (by omega) (by omega)).bind And.left
      fun startHolds it sameStart => (expectWord_reads .AND).step ?_
    refine (frameBound_reads reads stopFormed (by omega) (by omega)).bind And.right
      fun stopHolds other sameStop => .pure ⟨startHolds, stopHolds⟩ ⟨sameStart, ?_⟩
    simp [FrameBound.eraseOption, sameStop]

theorem frame_reads (reads : phrases.ReadBack limit bound) {frame : Option Frame}
    (formed : Frame.OptionFormed frame)
    (fits : 2 * ((Canonical.ofFrameOption frame).flatMap Piece.kinds).length ≤ bound + 1)
    (room : depth + 2 * Outline.depthAll (Outline.belowFrame frame) ≤ capOf limit + 1)
    (past : Past 10 rest) :
    Reads limit (Outline.AllReadable (Outline.belowFrame frame)) (Parse.frame phrases) depth
      ((Canonical.ofFrameOption frame).flatMap Piece.kinds ++ rest)
      (fun it => Frame.eraseOption it = Frame.eraseOption frame) depth rest := by
  refine .still here_still fun start => ?_
  rcases frame with _ | ⟨unit, first, last, exclusion, span⟩
  · have noUnit : Reads limit True frameUnit depth rest (· = none) depth rest :=
      (takeWord_no (past.ne (by decide))).step <| (takeWord_no (past.ne (by decide))).step <|
        (takeWord_no (past.ne (by decide))).step (.pure trivial rfl)
    exact noUnit.step (.pure (by simp [Outline.belowFrame]) rfl)
  · have text : (Canonical.ofFrameOption (some ⟨unit, first, last, exclusion, span⟩)).flatMap
        Piece.kinds = .keyword unit.word :: (boundTokens first last ++
          Piece.kinds (Canonical.ofExclusion exclusion)) := by
      cases last <;> simp [Canonical.ofFrameOption, Canonical.ofFrame, boundTokens]
    have below : Outline.belowFrame (some ⟨unit, first, last, exclusion, span⟩) =
        belowBounds first last := by
      cases last <;> rfl
    rw [text] at fits ⊢
    rw [below] at room ⊢
    simp only [List.length_cons, List.length_append] at fits
    simp only [List.cons_append, List.append_assoc]
    refine (frameUnit_reads unit).step ?_
    refine (frameBounds_reads reads formed.1 formed.2 (by omega) room).bind id
      fun holds them same => ?_
    obtain ⟨one, other⟩ := them
    obtain ⟨sameFirst, sameLast⟩ := same
    refine (optionalExclusion_reads exclusion (past.ne (by decide))).step ?_
    refine .still (spanFrom_still start) fun _ => .pure holds ?_
    simp only at sameFirst sameLast
    simp [Frame.eraseOption, Frame.erase, sameFirst, sameLast]

/-! ## Definitions -/

theorem existingWindow_reads (existing : Option Name) (past : Past 6 rest) :
    Reads limit True existingWindow depth
      (existing.toList.map Kind.identifier ++ rest) (· = existing) depth rest := by
  refine kind_reads.step ?_
  cases existing with
  | none =>
    show Reads limit True (if (lead rest).isIdentifier = true then _ else pure none) depth rest
      (· = none) depth rest
    rw [past.noName]
    exact .pure trivial rfl
  | some name => exact (identifier_reads name).step (.pure trivial rfl)

theorem partitionBy_reads (reads : phrases.ReadBack limit bound) {exprs : List Expr}
    (formed : Expr.AllFormed .value exprs)
    (fits : 2 * ((Canonical.clause [.PARTITION, .BY] (Canonical.ofExprs exprs)).flatMap
      Piece.kinds).length ≤ bound + 1)
    (room : depth + 2 * Outline.depthAll (Outline.ofExprs exprs) ≤ capOf limit + 1)
    (past : Past 7 rest) :
    Reads limit (Outline.AllReadable (Outline.ofExprs exprs)) (partitionBy phrases) depth
      ((Canonical.clause [.PARTITION, .BY] (Canonical.ofExprs exprs)).flatMap Piece.kinds ++ rest)
      (fun them => Expr.eraseAll them = Expr.eraseAll exprs) depth rest := by
  cases exprs with
  | nil => exact (takeWord_no (past.ne (by decide))).step (.pure (by simp [Outline.ofExprs]) rfl)
  | cons expr exprs =>
    have text : (Canonical.clause [.PARTITION, .BY] (Canonical.ofExprs (expr :: exprs))).flatMap
        Piece.kinds = .keyword .PARTITION :: .keyword .BY ::
          Piece.kinds (Piece.commaSeparated (Canonical.ofExprs (expr :: exprs))) := by
      simp [Canonical.clause, Canonical.ofExprs]
    rw [text] at fits ⊢
    simp only [List.length_cons] at fits
    refine (takeWord_yes .PARTITION).step ((expectWord_reads .BY).step ?_)
    exact expressions_reads reads (by simp) formed (by omega) room (past.ne (by decide)) past.quiet

/-- The rows of pieces of a window specification after the name that it is based on. -/
theorem kinds_ofWindowSpec (existing : Option Name) (partitionBy : List Expr)
    (orderBy : List SortKey) (frame : Option Frame) (span : Span) :
    Piece.kinds (Canonical.ofWindowSpec ⟨existing, partitionBy, orderBy, frame, span⟩) =
      .symbol .leftParen :: (existing.toList.map Kind.identifier ++
        ((Canonical.clause [.PARTITION, .BY] (Canonical.ofExprs partitionBy)).flatMap Piece.kinds ++
          ((Canonical.clause [.ORDER, .BY] (Canonical.ofSortKeys orderBy)).flatMap Piece.kinds ++
            ((Canonical.ofFrameOption frame).flatMap Piece.kinds ++ [.symbol .rightParen])))) := by
  cases existing <;> simp [Canonical.ofWindowSpec]

theorem windowSpec_reads (reads : phrases.ReadBack limit bound) {spec : WindowSpec}
    (formed : spec.Formed)
    (fits : 2 * (Piece.kinds (Canonical.ofWindowSpec spec)).length ≤ bound + 1)
    (room : depth + 2 * Outline.depthAll (Outline.belowWindowSpec spec) ≤ capOf limit + 1) :
    Reads limit (Outline.AllReadable (Outline.belowWindowSpec spec)) (windowSpec phrases) depth
      (Piece.kinds (Canonical.ofWindowSpec spec) ++ rest) (fun it => it.erase = spec.erase)
      depth rest := by
  obtain ⟨existing, partitionBy, orderBy, frame, span⟩ := spec
  obtain ⟨-, partitionFormed, keysFormed, frameFormed⟩ := formed
  rw [kinds_ofWindowSpec] at fits ⊢
  simp only [List.length_cons, List.length_append] at fits
  simp only [Outline.belowWindowSpec, Outline.depthAll_append] at room
  simp only [List.cons_append, List.append_assoc, List.nil_append, Outline.belowWindowSpec,
    Outline.allReadable_append]
  -- any clause may be missing, so what stands behind one is known from the last to the first
  have close : Past 10 (.symbol .rightParen :: rest) := .close rest
  have afterKeys : Past 9 ((Canonical.ofFrameOption frame).flatMap Piece.kinds ++
      .symbol .rightParen :: rest) := by
    rcases frame with _ | ⟨unit, first, last, exclusion, frameSpan⟩
    · exact close.mono (by omega)
    · cases unit <;> cases last <;> exact Nat.le_refl 9
  have afterPartition : Past 7 ((Canonical.clause [.ORDER, .BY] (Canonical.ofSortKeys orderBy)).flatMap
      Piece.kinds ++ ((Canonical.ofFrameOption frame).flatMap Piece.kinds ++
        .symbol .rightParen :: rest)) := by
    cases orderBy with
    | nil => exact afterKeys.mono (by omega)
    | cons key keys => exact Nat.le_refl 7
  have afterName : Past 6 ((Canonical.clause [.PARTITION, .BY]
      (Canonical.ofExprs partitionBy)).flatMap Piece.kinds ++
        ((Canonical.clause [.ORDER, .BY] (Canonical.ofSortKeys orderBy)).flatMap Piece.kinds ++
          ((Canonical.ofFrameOption frame).flatMap Piece.kinds ++
            .symbol .rightParen :: rest))) := by
    cases partitionBy with
    | nil => exact afterPartition.mono (by omega)
    | cons expr exprs => exact Nat.le_refl 6
  refine .still here_still fun start => (expectSign_reads _).step ?_
  refine (existingWindow_reads existing afterName).step ?_
  refine (partitionBy_reads reads partitionFormed (by omega) (by omega) afterPartition).bind
    And.left fun partitionHolds exprs samePartition => ?_
  refine (orderBy_reads reads keysFormed (by omega) (by omega) (afterKeys.mono (by omega))).bind
    (fun all => all.2.1) fun keysHold keys sameKeys => ?_
  refine (frame_reads reads frameFormed (by omega) (by omega) close).bind
    (fun all => all.2.2) fun frameHolds it sameFrame => (expectSign_reads _).step ?_
  refine .still (spanFrom_still start) fun _ => .pure ⟨partitionHolds, keysHold, frameHolds⟩ ?_
  simp [WindowSpec.erase, samePartition, sameKeys, sameFrame]

theorem windowDef_reads (reads : phrases.ReadBack limit bound) {window : WindowDef}
    (formed : window.spec.Formed)
    (fits : 2 * (Piece.kinds (Canonical.ofWindow window)).length ≤ bound + 1)
    (room : depth + 2 * Outline.depthAll (Outline.belowWindowSpec window.spec) ≤ capOf limit + 1) :
    Reads limit (Outline.AllReadable (Outline.belowWindowSpec window.spec)) (windowDef phrases)
      depth (Piece.kinds (Canonical.ofWindow window) ++ rest)
      (fun it => it.erase = window.erase) depth rest := by
  have text : Piece.kinds (Canonical.ofWindow window) = .identifier window.name ::
      .keyword .AS :: Piece.kinds (Canonical.ofWindowSpec window.spec) := by
    simp [Canonical.ofWindow]
  rw [text] at fits ⊢
  simp only [List.length_cons] at fits
  refine .still here_still fun start => (identifier_reads window.name).step ?_
  refine (expectWord_reads .AS).step ?_
  refine (windowSpec_reads reads formed (by omega) room).bind id fun holds spec same => ?_
  refine .still (spanFrom_still start) fun _ => .pure holds ?_
  simp [WindowDef.erase, same]

end CanonicalSql.Parse

namespace CanonicalSql.Outline

/-- Window definitions count for what is below their specifications. -/
theorem allReadable_ofWindows {windows : List WindowDef} :
    AllReadable (ofWindows windows) ↔
      ∀ window ∈ windows, AllReadable (belowWindowSpec window.spec) := by
  induction windows with
  | nil => simp [ofWindows]
  | cons window rest ih =>
    obtain ⟨name, spec, span⟩ := window
    simp [ofWindows, ih, plain, readable_node, Node.isUnreadable]

theorem depth_le_ofWindows {window : WindowDef} {windows : List WindowDef}
    (member : window ∈ windows) :
    depthAll (belowWindowSpec window.spec) ≤ depthAll (ofWindows windows) := by
  induction windows with
  | nil => cases member
  | cons other rest ih =>
    obtain ⟨name, spec, span⟩ := other
    simp only [ofWindows, depthAll_cons, depth_plain, Node.isLevel]
    rcases List.mem_cons.mp member with rfl | member
    · simp only
      omega
    · have := ih member
      omega

end CanonicalSql.Outline

namespace CanonicalSql.Parse

variable {limit bound depth : Nat} {phrases : Phrases} {rest : List Kind}

theorem windows_reads (reads : phrases.ReadBack limit bound) {windows : List WindowDef}
    (formed : WindowDef.AllFormed windows)
    (fits : 2 * ((Canonical.clause [.WINDOW] (Canonical.ofWindows windows)).flatMap
      Piece.kinds).length ≤ bound + 1)
    (room : depth + 2 * Outline.depthAll (Outline.ofWindows windows) ≤ capOf limit + 1)
    (past : Past 6 rest) :
    Reads limit (Outline.AllReadable (Outline.ofWindows windows)) (Parse.windows phrases) depth
      ((Canonical.clause [.WINDOW] (Canonical.ofWindows windows)).flatMap Piece.kinds ++ rest)
      (fun them => WindowDef.eraseAll them = WindowDef.eraseAll windows) depth rest := by
  rw [Canonical.ofWindows_eq_map] at fits ⊢
  cases windows with
  | nil => exact (takeWord_no (past.ne (by decide))).step (.pure (by simp [Outline.ofWindows]) rfl)
  | cons window windows =>
    have text : (Canonical.clause [.WINDOW] ((window :: windows).map Canonical.ofWindow)).flatMap
        Piece.kinds = .keyword .WINDOW ::
          Piece.kinds (Piece.commaSeparated ((window :: windows).map Canonical.ofWindow)) := by
      simp [Canonical.clause]
    rw [text] at fits ⊢
    simp only [List.length_cons] at fits
    refine (takeWord_yes .WINDOW).step ?_
    have items : Reads limit
        (∀ it ∈ window :: windows, Outline.AllReadable (Outline.belowWindowSpec it.spec))
        (commaSeparated (windowDef phrases)) depth
        (Piece.kinds (Piece.commaSeparated ((window :: windows).map Canonical.ofWindow)) ++ rest)
        (fun them => them.map WindowDef.erase = (window :: windows).map WindowDef.erase) depth
        rest := by
      refine Reads.list (by simp) (past.ne (by decide)) fun it member more after => ?_
      have shorter := Piece.length_item_le Canonical.ofWindow member
      have lower := Outline.depth_le_ofWindows member
      exact windowDef_reads reads (WindowDef.allFormed_iff.mp formed it member).2 (by omega)
        (by omega)
    refine items.mono Outline.allReadable_ofWindows.symm fun them same => ?_
    rw [WindowDef.eraseAll_eq_map, WindowDef.eraseAll_eq_map, same]

end CanonicalSql.Parse
