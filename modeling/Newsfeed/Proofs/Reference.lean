import Newsfeed.Reference

/-!
The number line that feeds share with what else is listed. Labels lie below one bound and the feeds
of plugins between that and another, and each is as far below its bound as its own number says.
-/

namespace Newsfeed.Reference

theorem feedToLabel_labelToFeed {label : Int} (h : 0 ≤ label) :
    feedToLabel (labelToFeed label) = label := by
  unfold feedToLabel labelToFeed labelBound
  omega

theorem feedToPlugin_pluginToFeed {plugin : Int} (h : 0 ≤ plugin) :
    feedToPlugin (pluginToFeed plugin) = plugin := by
  unfold feedToPlugin pluginToFeed pluginBound
  omega

section Ranges

variable {n : Int}

theorem ofId_label {isCategory : Bool} (h : n < labelBound) :
    ofId? n isCategory = some (.label (feedToLabel n)) := by
  have hneg : n < -1024 := h
  rw [ofId?, if_neg (by omega), if_neg (by omega), if_neg (by omega), if_neg (by omega),
    if_neg (by omega), if_neg (by omega), if_neg (by omega), if_pos h]

theorem ofId_plugin (hlow : labelBound ≤ n) (hhigh : n < pluginBound) :
    ofId? n false = some (.plugin (feedToPlugin n)) := by
  have hneg : n < -128 := hhigh
  have hnot : ¬ n < labelBound := by omega
  rw [ofId?, if_neg (by omega), if_neg (by omega), if_neg (by omega), if_neg (by omega),
    if_neg (by omega), if_neg (by omega), if_neg (by omega), if_neg hnot, if_pos ⟨hhigh, rfl⟩]

end Ranges

theorem labelToFeed_lt (label : Int) : labelToFeed label < labelBound := by
  unfold labelToFeed
  omega

theorem ofId_labelToFeed {label : Int} {isCategory : Bool} (h : 0 ≤ label) :
    ofId? (labelToFeed label) isCategory = some (.label label) := by
  rw [ofId_label (labelToFeed_lt label), feedToLabel_labelToFeed h]

theorem pluginToFeed_lt (plugin : Int) : pluginToFeed plugin < pluginBound := by
  unfold pluginToFeed
  omega

/-- There is room for 895 feeds of plugins above the labels, and one more at the bound itself. -/
theorem labelBound_lt_pluginToFeed {plugin : Int} (h : 0 ≤ plugin) :
    labelBound < pluginToFeed plugin ↔ plugin < 895 := by
  unfold labelBound pluginToFeed pluginBound
  omega

/-- From the next on, the number of a plugin's feed is that of a label. -/
theorem ofId_pluginToFeed {plugin : Int} (h : 0 ≤ plugin) :
    ofId? (pluginToFeed plugin) false =
      some (if plugin ≤ 895 then .plugin plugin else .label (plugin - 896)) := by
  split
  · have hlow : labelBound ≤ pluginToFeed plugin := by
      unfold labelBound pluginToFeed pluginBound
      omega
    rw [ofId_plugin hlow (pluginToFeed_lt plugin), feedToPlugin_pluginToFeed h]
  · have hbelow : pluginToFeed plugin < labelBound := by
      unfold labelBound pluginToFeed pluginBound
      omega
    have hlabel : feedToLabel (pluginToFeed plugin) = plugin - 896 := by
      unfold feedToLabel labelBound pluginToFeed pluginBound
      omega
    rw [ofId_label hbelow, hlabel]

end Newsfeed.Reference
