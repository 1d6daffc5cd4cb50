namespace TileKiln.Message

/-- Stands in a message for a reason whose wording is left to whoever shows the message. -/
def detail : String := "<detail>"

end TileKiln.Message
