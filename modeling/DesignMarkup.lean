import DesignMarkup.Main
import DesignMarkup.Proofs.Document.ProperForest
import DesignMarkup.Proofs.Forest.Encoding
import DesignMarkup.Proofs.Forest.Induced
import DesignMarkup.Proofs.Markup.Agreement
import DesignMarkup.Proofs.Markup.Reading
import DesignMarkup.Proofs.Session.ChangeLog
import DesignMarkup.Proofs.Session.WriteThrough
import DesignMarkup.Proofs.Document.Reopen
import DesignMarkup.Proofs.Forest.Search
import DesignMarkup.Proofs.Session.Restart
import DesignMarkup.Proofs.Document.Encoding
import DesignMarkup.Proofs.Json.Depth
import DesignMarkup.Proofs.Document.Nesting
import DesignMarkup.Proofs.Forest.Nesting
import DesignMarkup.Proofs.Command.Files
import DesignMarkup.Proofs.Command.Run
import DesignMarkup.Proofs.Command.Generate
import DesignMarkup.Proofs.Document.Acceptance
import DesignMarkup.Proofs.Document.SameTree
import DesignMarkup.Proofs.Tag.Auto
import DesignMarkup.Proofs.Tag.Nesting
import DesignMarkup.Proofs.Command.AutoTag
import DesignMarkup.Proofs.Document.Conversion
import DesignMarkup.Proofs.Markup.StyleReader
import DesignMarkup.Proofs.Markup.StyleSheet
import DesignMarkup.Proofs.Artifact
import DesignMarkup.Proofs.Message.Tagged
import DesignMarkup.Proofs.Message.Inbound
import DesignMarkup.Proofs.Message.Outbound
import DesignMarkup.Proofs.Exchange
import DesignMarkup.Proofs.Session.Artifacts
import DesignMarkup.Proofs.Tag.Requests
import DesignMarkup.Proofs.Tag.Additions
import DesignMarkup.Proofs.Markup.Inert
import DesignMarkup.Proofs.Markup.Splice
import DesignMarkup.Proofs.Document.Contents
import DesignMarkup.Proofs.Tag.ByHand
import DesignMarkup.Proofs.Tag.Overwriting
import DesignMarkup.Proofs.Session.Commuting
import DesignMarkup.Proofs.Document.Splices
import DesignMarkup.Proofs.Traversal
import DesignMarkup.Proofs.Markup.Declarations
import DesignMarkup.Proofs.Markup.Layout
import DesignMarkup.Proofs.Command.Check
import DesignMarkup.Proofs.Markup.Encoding
import DesignMarkup.Proofs.Command.Losses
import DesignMarkup.Proofs.Tag.Properties
import DesignMarkup.Proofs.Text.Trim
import DesignMarkup.Proofs.Tag.Named
import DesignMarkup.Proofs.Markup.FirstFree
import DesignMarkup.Proofs.Markup.Selectors
import DesignMarkup.Proofs.Markup.Elements
import DesignMarkup.Proofs.Markup.Entities
import DesignMarkup.Proofs.Text.SlugRuns
import DesignMarkup.Proofs.Style.Calls
