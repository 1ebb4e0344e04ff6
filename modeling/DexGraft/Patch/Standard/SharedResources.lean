import DexGraft.Patch.Runner

/-!
# Shared resources

The patch that looks up the resources other patches refer to by key. A resource that is missing is
kept as such; whether that matters is decided where a patch asks for it.
-/

namespace DexGraft.Patch.Standard

/-- Keys with the type and the name of the resource that each stands for. -/
def sharedResources : List (String × ResourceType × String) :=
  [("AccountSwitcherAccessibility", .string, "account_switcher_accessibility_label"),
   ("ActionBarRingo", .layout, "action_bar_ringo"),
   ("ActionsContainer", .id, "actions_container"),
   ("ButtonContainer", .id, "button_container"),
   ("ButtonIconPaddingMedium", .dimen, "button_icon_padding_medium"),
   ("ChipCloud", .layout, "chip_cloud"),
   ("ColorGrey", .color, "ytm_color_grey_12"),
   ("DialogSolid", .style, "Theme.YouTubeMusic.Dialog.Solid"),
   ("FloatingLayout", .id, "floating_layout"),
   ("HistoryMenuItem", .id, "history_menu_item"),
   ("InlineTimeBarAdBreakMarkerColor", .color, "inline_time_bar_ad_break_marker_color"),
   ("InterstitialsContainer", .id, "interstitials_container"),
   ("IsTablet", .bool, "is_tablet"),
   ("MenuEntry", .layout, "menu_entry"),
   ("MusicMenuLikeButtons", .layout, "music_menu_like_buttons"),
   ("MusicNotifierShelf", .layout, "music_notifier_shelf"),
   ("NamesInactiveAccountThumbnailSize", .dimen, "names_inactive_account_thumbnail_size"),
   ("PlayerCastMediaRouteButton", .layout, "player_cast_media_route_button"),
   ("PlayerOverlayChip", .id, "player_overlay_chip"),
   ("PrivacyTosFooter", .id, "privacy_tos_footer"),
   ("QualityAuto", .string, "quality_auto"),
   ("Text1", .id, "text1"),
   ("ToolTipContentView", .layout, "tooltip_content_view"),
   ("TosFooter", .id, "tos_footer")]

def sharedResourceIds : Patch where
  name := "shared-resource-ids"
  execute := sharedResources.forM fun (key, type, name) => do
    let _ ← Patching.share key type name

end DexGraft.Patch.Standard
