/-
The template that a new proposal starts from.
-/
import Tender.Record.Proposal

namespace Tender.Proposal

/-- The only page of the template: the heads of a proposal and a place for the scope of work. -/
def starterContent : Text :=
    lit "<p class=\"ql-align-justify\"><strong style=\"color: rgb(0, 0, 0);\"> </strong></p>" ++
    lit "<table><tbody>" ++
    lit "<tr><td data-row=\"1\"><strong style=\"color: rgb(0, 0, 0);\">Proposal / Contract Number:</strong>" ++
    lit "<span style=\"color: rgb(0, 0, 0);\"> \x7b\x7bproposalNo\x7d\x7d </span></td>" ++
    lit "<td data-row=\"1\"><strong style=\"color: rgb(0, 0, 0);\">Date: </strong>" ++
    lit "<span style=\"color: rgb(0, 0, 0);\">\x7b\x7bdate\x7d\x7d </span></td></tr>" ++
    lit "<tr><td data-row=\"2\"><strong style=\"color: rgb(0, 0, 0);\">Job Name:</strong>" ++
    lit "<span style=\"color: rgb(0, 0, 0);\"> \x7b\x7bprojectTitle\x7d\x7d </span></td>" ++
    lit "<td data-row=\"2\"><strong style=\"color: rgb(0, 0, 0);\">Job Address: </strong>" ++
    lit "<span style=\"color: rgb(0, 0, 0);\">\x7b\x7bjobAddress\x7d\x7d </span></td></tr>" ++
    lit "</tbody></table>" ++
    lit "<h2><br></h2>" ++
    lit "<p class=\"ql-align-justify\"><strong style=\"color: rgb(0, 0, 0);\"><u>Customer Contact:</u></strong></p>" ++
    lit "<p class=\"ql-align-justify\">\x7b\x7bcustomerName\x7d\x7d</p>" ++
    lit "<p class=\"ql-align-justify\"><span style=\"color: rgb(0, 0, 0);\">\x7b\x7bcontactPerson\x7d\x7d </span></p>" ++
    lit "<p class=\"ql-align-justify\">\x7b\x7bcontactEmail\x7d\x7d</p>" ++
    lit "<p class=\"ql-align-justify\">\x7b\x7bcontactPhone\x7d\x7d</p>" ++
    lit "<h2><br></h2>" ++
    lit "<p class=\"ql-align-center\"><strong style=\"color: rgb(0, 0, 0);\"><u>PROJECT SCOPE OF WORK</u></strong></p>" ++
    lit "<p><br></p><p>Insert scope of work here...</p>"

/-- The template that a new proposal starts from. -/
def starter : Proposal :=
  { (default : Proposal) with
    id := some (lit "empty")
    title := lit "Empty Template"
    pages := [{ content := starterContent, extras := [] }] }

end Tender.Proposal
