import EmbeddedMarkup.Proofs.Html.Refused

/-!
# Everything is understood

With the template languages that `auto` stands for, and whatever the other settings are, every
lexeme of a text is of a kind that can be written (`Lexed.isUnderstood`). So no run comes to a token
that it would have to write without understanding it, and none is ever left with nothing before the
next token (`Setup.understood_of_mem_trail`).
-/

namespace EmbeddedMarkup.Html

namespace Setup

variable {setup : Setup}

/-- The tokens that a run comes to, each with the state it finds. -/
def trail (setup : Setup) : (before : Kind) → List Token → State → List (Token × State)
  | _, [], _ => []
  | before, t :: following, s =>
      (t, s) ::
        if t.kind = .eof then []
        else
          match setup.write before t following s with
          | .error _ => []
          | .ok s' => trail setup t.kind following s'

/-- What was written last stays understood from each token to the next. -/
theorem understood_of_mem_trail {ts : List Token} {before : Kind} {s : State}
    (hlast : s.last ≠ .notUnderstood) (kinds : ∀ t ∈ ts, t.kind ≠ .eof → t.kind.isUnderstood = true)
    {x : Token × State} (hx : x ∈ setup.trail before ts s) :
    (x.1.kind ≠ .eof → x.1.kind.isUnderstood = true) ∧ x.2.last ≠ .notUnderstood := by
  induction ts generalizing before s with
  | nil => cases hx
  | cons t following ih =>
      have hkind := kinds t (List.mem_cons_self ..)
      unfold trail at hx
      rcases List.mem_cons.mp hx with rfl | hx
      · exact ⟨hkind, hlast⟩
      · split at hx
        · cases hx
        · next heof =>
            split at hx
            · cases hx
            · next s' hs' =>
                exact ih (last_write (hkind heof) hs')
                  (fun u hu => kinds u (List.mem_cons_of_mem _ hu)) hx

end Setup

/-- With the template languages of `auto` no token is of unknown kind. A run over the tokens comes
to none that it does not understand, and always has something before the next token. -/
theorem unknown_not_produced {style : Style.Markup} {t : Text} {ts : List Token}
    (templating : style.templating = Style.Markup.autoTemplating ["auto".toList])
    (hts : Token.ofText (.ofStyle style) t = .ok ts) :
    (∀ u ∈ ts, u.kind ≠ .unknown) ∧
      ∀ (setup : Setup) (page : Layout.Page), ∀ x ∈ setup.trail .start ts { page },
        (x.1.kind ≠ .eof → x.1.kind.isUnderstood = true) ∧ x.2.last ≠ .notUnderstood := by
  have hkinds : ∀ u ∈ ts, u.kind ≠ .eof → u.kind.isUnderstood = true := fun u hu =>
    (Token.ofText_eq_ok hts).isUnderstood templating (.inl rfl) _ (List.mem_map_of_mem hu)
  refine ⟨fun u hu hunknown => ?_, fun setup page x hx => ?_⟩
  · have := hkinds u hu (by simp [hunknown])
    simp [hunknown, Kind.isUnderstood] at this
  · exact Setup.understood_of_mem_trail (by simp) hkinds hx

theorem unknown_not_produced_cut_off : ∃ style ts,
    Style.Markup.ofSettings [("indent_handlebars".toList, .bool false)] = .ok style ∧
      Token.ofText (.ofStyle style) "\x7b\x7b#if\x7d\x7d <a b='\x7b%>' \x7b\x7b</a".toList =
      .ok ts ∧ ts.length = 6 ∧ ∀ u ∈ ts, u.kind ≠ .unknown := by
  obtain ⟨style, hstyle, templating, hlength⟩ : ∃ style,
      Style.Markup.ofSettings [("indent_handlebars".toList, .bool false)] = .ok style ∧
        style.templating = Style.Markup.autoTemplating ["auto".toList] ∧
        (Token.ofText (.ofStyle style)
          "\x7b\x7b#if\x7d\x7d <a b='\x7b%>' \x7b\x7b</a".toList).toOption.map
            List.length = some 6 :=
    ⟨_, rfl, rfl, by decide +kernel⟩
  obtain ⟨ts, hts, hlength⟩ := Option.map_eq_some_iff.mp hlength
  have hts := eq_ok_of_toOption hts
  exact ⟨style, ts, hstyle, hts, hlength, (unknown_not_produced templating hts).1⟩

end EmbeddedMarkup.Html
