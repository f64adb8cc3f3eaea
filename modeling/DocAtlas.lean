import DocAtlas.Entity.Reader
import DocAtlas.Main
import DocAtlas.Proofs.Attempt
import DocAtlas.Proofs.Placement
import DocAtlas.Proofs.SuffixTree
import DocAtlas.Proofs.Worklist
import DocAtlas.Proofs.Strictness
import DocAtlas.Proofs.EntityPath
import DocAtlas.Proofs.Lookup
import DocAtlas.Proofs.CrossReference
import DocAtlas.Proofs.ClassMembers
import DocAtlas.Proofs.Locations
import DocAtlas.Proofs.Narrowing
import DocAtlas.Proofs.Indexing
import DocAtlas.Proofs.ConversionOrder
import DocAtlas.Proofs.Warnings
import DocAtlas.Proofs.TypeRendering
import DocAtlas.Proofs.Resolution
import DocAtlas.Proofs.EntityRoundTrip
import DocAtlas.Proofs.Layout
import DocAtlas.Proofs.SiblingOrder
import DocAtlas.Proofs.AlikeSignatures
import DocAtlas.Proofs.ConstructorOrder
import DocAtlas.Proofs.Coverage
import DocAtlas.Proofs.Misplaced
import DocAtlas.Proofs.Addressing
import DocAtlas.Proofs.Segmentation
import DocAtlas.Proofs.Agreement
import DocAtlas.Proofs.IgnoredEntries
import DocAtlas.Proofs.SpuriousMismatch
import DocAtlas.Proofs.DottedStem
import DocAtlas.Proofs.WayBack
import DocAtlas.Proofs.TypeReading
import DocAtlas.Proofs.Grouping
import DocAtlas.Proofs.BulkInsertion
import DocAtlas.Proofs.Reindexing
import DocAtlas.Proofs.SourceRecord
import DocAtlas.Proofs.Destructuring
import DocAtlas.Proofs.NodeCounts
import DocAtlas.Proofs.ParentLinks
import DocAtlas.Proofs.Punctuation
import DocAtlas.Proofs.UnnamedTypes
